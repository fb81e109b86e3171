import AgentRoom.Tools.Policy
import AgentRoom.Prompt.Developer
import AgentRoom.Lib.Fallible

set_option autoImplicit false

/-! # The two developers

`developer` renders its prompt from the state on every entry. `developerReact` renders it
once: from its second entry on it continues the append-only transcript `dev_messages`, and
what other nodes want it to know must have been appended there.
-/

namespace AgentRoom

/-- `developer`, the node without tools. -/
def developer (systemPrompt : String) (extraContextKeys : List ContextKey) (w : World)
    (s : TaskState) : NodeRun :=
  let msgs := (developerPromptBuilder systemPrompt extraContextKeys).build s
  let code := w.message.content.extractText
  { calls := [invoked .developer msgs w.message]
    update :=
      { code := some code
        artifacts := [{ kind := .code, role := .developer, content := code
                        round := s.revisionRound }]
        events := [{ type := "developer_completed", role := some .developer
                     round := some s.revisionRound }] } }

/-- The developer without tools makes one call, with the prompt it has rendered. -/
theorem developer_calls (sys : String) (keys : List ContextKey) (w : World) (s : TaskState) :
    ∃ call, (developer sys keys w s).calls = [call] ∧
      call.assembled = (developerPromptBuilder sys keys).build s :=
  ⟨_, rfl, rfl⟩

/-- `_new_tool_messages`: the run of tool messages at the end of the transcript. -/
def newToolMessages (existing : List Message) : List ToolMessage :=
  (existing.reverse.takeWhile Message.isTool).reverse.filterMap
    (fun m => match m with
      | .tool t => some t
      | _ => none)

/-- The `tool_response` checkpoint: the events of `warn` hits, or the tripwire. -/
def scanToolMessages (g : Guardrail) (roundNo : Nat) :
    List ToolMessage → Except NodeError (List Event)
  | [] => .ok []
  | t :: rest =>
      match g.check t.content.extractText .toolResponse with
      -- a blocked result ends the turn before the model is called
      | .error finding => .error (.guardrailTripwire finding)
      | .ok none => scanToolMessages g roundNo rest
      | .ok (some finding) => do
          let events ← scanToolMessages g roundNo rest
          .ok ({ type := "guardrail_triggered", role := some .developer
                 round := some roundNo, payload := finding.payload } :: events)

/-- `_inject_memory`, for the two memory texts the provider returns. -/
def injectMemory (curated prefetch : String) (convo : List Message) : List Message :=
  match convo with
  | .system text :: rest =>
      let blocks := [curated, prefetch].filterMap
        (fun t => if Py.isBlank t then none else some (Py.strip t))
      -- nothing recalled: the system prompt stays bit for bit what it was
      if blocks = [] then convo
      else .system (text ++ "\n\n" ++ Py.join "\n\n" blocks) :: rest
  | _ => convo

/-- Without a memory text the prompt stays as it is. -/
theorem injectMemory_of_blank {curated prefetch : String} (hc : Py.isBlank curated = true)
    (hp : Py.isBlank prefetch = true) (convo : List Message) :
    injectMemory curated prefetch convo = convo := by
  unfold injectMemory
  split
  · simp [hc, hp]
  · rfl

/-- `_append_budget_note`. -/
def appendBudgetNote (convo : List Message) : List Message :=
  match convo.getLast? with
  | none => convo
  -- two human messages in a row are merged into one
  | some (.human text) => convo.dropLast ++ [.human (text ++ budgetExhaustedNote)]
  | some _ => convo ++ [.human (Py.lstrip budgetExhaustedNote)]

/-- The search text of the memory prefetch: the description, else the title. -/
def memoryQuery (s : TaskState) : String :=
  if s.description = "" then s.title else s.description

/-- The transcript a turn starts from: the running one, or the rendered prompt with memory. -/
def initialConvo (systemPrompt : String) (extraContextKeys : List ContextKey) (w : World)
    (s : TaskState) : List Message :=
  if s.devMessages = [] then
    -- without a query there is nothing to search for
    injectMemory w.curated (if memoryQuery s = "" then "" else w.prefetch)
      ((developerPromptBuilder systemPrompt extraContextKeys).build s)
  else s.devMessages

/-- The message list the tool-using developer assembles, before the context engine: the
running transcript (or the first prompt), with the budget note once the tool budget is used
up. -/
def assembledConvo (systemPrompt : String) (extraContextKeys : List ContextKey)
    (maxDevRounds : Nat) (w : World) (s : TaskState) : List Message :=
  let convo := initialConvo systemPrompt extraContextKeys w s
  if maxDevRounds ≤ s.devRound then appendBudgetNote convo else convo

/-- Within the budget a running transcript is used as it is. -/
theorem assembledConvo_of_lt {systemPrompt : String} {extraContextKeys : List ContextKey}
    {maxDevRounds : Nat} {w : World} {s : TaskState} (hne : s.devMessages ≠ [])
    (hlt : s.devRound < maxDevRounds) :
    assembledConvo systemPrompt extraContextKeys maxDevRounds w s = s.devMessages := by
  rw [assembledConvo, if_neg (Nat.not_le.mpr hlt), initialConvo, if_neg hne]

/-- What a developer turn writes: the new transcript messages and the counter always, the
code only on a turn without tool calls. -/
def developerReactUpdate (s : TaskState) (convo : List Message) (guardrailEvents : List Event)
    (response : AIMessage) : Update :=
  let update : Update :=
    -- the first turn persists the prompt too, so that later turns only add their reply
    { devRound := some (s.devRound + 1)
      devMessages := if s.devMessages = [] then convo ++ [.ai response] else [.ai response] }
  if response.toolCalls = [] then
    -- the final answer of this turn
    let code := response.content.extractText
    { update with
      code := some code
      artifacts := [{ kind := .code, role := .developer, content := code
                      round := s.revisionRound }]
      events := guardrailEvents ++
        [{ type := "developer_completed", role := some .developer
           round := some s.revisionRound }] }
  else { update with events := guardrailEvents }

/-- `developer_react`. Once `dev_round` reaches the limit the model is called without tools. -/
def developerReact (systemPrompt : String) (extraContextKeys : List ContextKey)
    (maxDevRounds : Nat) (b : Bindings) (w : World) (s : TaskState) :
    Except NodeError NodeRun := do
  let guardrailEvents ← scanToolMessages b.guardrail s.revisionRound
    (newToolMessages s.devMessages)
  let convo := assembledConvo systemPrompt extraContextKeys maxDevRounds w s
  let llmInput ← b.contextEngine w convo
  .ok
    { calls := [{ role := .developer, assembled := convo, messages := llmInput
                  toolsBound := decide (s.devRound < maxDevRounds)
                  reply := some w.message }]
      update := developerReactUpdate s convo guardrailEvents w.message }

/-- What a developer turn that completes has called and written. -/
theorem developerReact_ok {systemPrompt : String} {extraContextKeys : List ContextKey}
    {maxDevRounds : Nat} {b : Bindings} {w : World} {s : TaskState} {run : NodeRun}
    (h : developerReact systemPrompt extraContextKeys maxDevRounds b w s = .ok run) :
    ∃ convo events llmInput,
      convo = assembledConvo systemPrompt extraContextKeys maxDevRounds w s ∧
      run = { calls := [{ role := .developer, assembled := convo, messages := llmInput
                          toolsBound := decide (s.devRound < maxDevRounds)
                          reply := some w.message }]
              update := developerReactUpdate s convo events w.message } := by
  obtain ⟨events, -, h⟩ := Fallible.bind_eq_ok h
  obtain ⟨llmInput, -, h⟩ := Fallible.bind_eq_ok h
  exact ⟨_, events, llmInput, rfl, (Except.ok.inj h).symm⟩

/-- The first turn writes the prompt and the reply. -/
theorem developerReactUpdate_devMessages {s : TaskState} (hs : s.devMessages = [])
    (convo : List Message) (events : List Event) (response : AIMessage) :
    (developerReactUpdate s convo events response).devMessages = convo ++ [.ai response] := by
  by_cases hc : response.toolCalls = [] <;> simp [developerReactUpdate, hs, hc]

/-- The reply closes the transcript. -/
theorem pendingCalls_developerReactUpdate (s : TaskState) (convo : List Message)
    (events : List Event) (response : AIMessage) :
    pendingCalls (developerReactUpdate s convo events response).devMessages
      = response.toolCalls := by
  by_cases hs : s.devMessages = [] <;> by_cases hc : response.toolCalls = [] <;>
    simp [developerReactUpdate, hs, hc, Message.toolCalls, pendingCalls]

theorem pendingCalls_apply_developerReactUpdate (s : TaskState) (convo : List Message)
    (events : List Event) (response : AIMessage) :
    pendingCalls (s.apply (developerReactUpdate s convo events response)).devMessages
      = response.toolCalls := by
  by_cases hs : s.devMessages = [] <;> by_cases hc : response.toolCalls = [] <;>
    simp [developerReactUpdate, hs, hc, Message.toolCalls]

/-- A developer turn leaves a message behind. -/
theorem devMessages_apply_developerReactUpdate_ne_nil (s : TaskState) (convo : List Message)
    (events : List Event) (response : AIMessage) :
    (s.apply (developerReactUpdate s convo events response)).devMessages ≠ [] := by
  by_cases hs : s.devMessages = [] <;> by_cases hc : response.toolCalls = [] <;>
    simp [developerReactUpdate, hs, hc]

theorem devMessages_ne_nil_of_developerReact {systemPrompt : String}
    {extraContextKeys : List ContextKey} {maxDevRounds : Nat} {b : Bindings} {w : World}
    {s : TaskState} {run : NodeRun}
    (h : developerReact systemPrompt extraContextKeys maxDevRounds b w s = .ok run) :
    (s.apply run.update).devMessages ≠ [] := by
  obtain ⟨convo, events, llmInput, -, rfl⟩ := developerReact_ok h
  exact devMessages_apply_developerReactUpdate_ne_nil _ _ _ _

/-- A switched-off guardrail lets every tool message pass. -/
theorem scanToolMessages_off {g : Guardrail} (hg : g.mode = .off) (roundNo : Nat)
    (ts : List ToolMessage) : scanToolMessages g roundNo ts = .ok [] := by
  induction ts with
  | nil => rfl
  | cons t rest ih => simp [scanToolMessages, Guardrail.check_off hg, ih]

/-- A turn whose scan and engine go through. -/
theorem developerReact_of_scan {systemPrompt : String} {extraContextKeys : List ContextKey}
    {maxDevRounds : Nat} {b : Bindings} {w : World} {s : TaskState} {events : List Event}
    {llmInput : List Message}
    (hscan : scanToolMessages b.guardrail s.revisionRound (newToolMessages s.devMessages)
      = .ok events)
    (hengine : b.contextEngine w (assembledConvo systemPrompt extraContextKeys maxDevRounds w s)
      = .ok llmInput) :
    developerReact systemPrompt extraContextKeys maxDevRounds b w s = .ok
      (let convo := assembledConvo systemPrompt extraContextKeys maxDevRounds w s
       { calls := [{ role := .developer, assembled := convo, messages := llmInput
                     toolsBound := decide (s.devRound < maxDevRounds)
                     reply := some w.message }]
         update := developerReactUpdate s convo events w.message }) := by
  rw [developerReact, Fallible.ok_bind hscan]
  exact Fallible.ok_bind hengine

/-- The turn with the default bindings: nothing is scanned or compressed. -/
theorem developerReact_default (systemPrompt : String) (extraContextKeys : List ContextKey)
    (maxDevRounds : Nat) (w : World) (s : TaskState) :
    developerReact systemPrompt extraContextKeys maxDevRounds {} w s = .ok
      (let convo := assembledConvo systemPrompt extraContextKeys maxDevRounds w s
       { calls := [{ role := .developer, assembled := convo, messages := convo
                     toolsBound := decide (s.devRound < maxDevRounds)
                     reply := some w.message }]
         update := developerReactUpdate s convo [] w.message }) := by
  exact developerReact_of_scan (scanToolMessages_off (g := ({} : Guardrail)) rfl s.revisionRound
    (newToolMessages s.devMessages)) rfl

/-! ## Tool messages and their checkpoint -/

/-- Tool messages at the end of a transcript are scanned. -/
theorem mem_newToolMessages (old : List Message) {new : List ToolMessage} {t : ToolMessage}
    (ht : t ∈ new) : t ∈ newToolMessages (old ++ new.map .tool) := by
  have hall : ∀ m ∈ (new.map Message.tool).reverse, m.isTool = true := by
    intro m hm
    obtain ⟨t', -, rfl⟩ := List.mem_map.mp (List.mem_reverse.mp hm)
    rfl
  unfold newToolMessages
  rw [List.reverse_append, List.takeWhile_append_of_pos hall]
  refine List.mem_filterMap.mpr ⟨.tool t, ?_, rfl⟩
  simp [ht]

/-- A scan that goes through has checked every message. -/
theorem check_ne_error_of_scan {g : Guardrail} {roundNo : Nat} {ts : List ToolMessage}
    {events : List Event} (h : scanToolMessages g roundNo ts = .ok events) {t : ToolMessage}
    (ht : t ∈ ts) (finding : GuardrailFinding) :
    g.check t.content.extractText .toolResponse ≠ .error finding := by
  induction ts generalizing events with
  | nil => cases ht
  | cons t' rest ih =>
      unfold scanToolMessages at h
      rcases List.mem_cons.mp ht with rfl | ht
      · intro herror
        rw [herror] at h
        cases h
      · split at h
        · cases h
        · exact ih h ht
        · obtain ⟨events', hrest, -⟩ := Fallible.bind_eq_ok h
          exact ih hrest ht

theorem tool_mem_of_mem_injectMemory {curated prefetch : String} {convo : List Message}
    {t : ToolMessage} (h : .tool t ∈ injectMemory curated prefetch convo) : .tool t ∈ convo := by
  unfold injectMemory at h
  split at h
  · dsimp only at h
    split at h
    · exact h
    · rcases List.mem_cons.mp h with h | h
      · cases h
      · exact List.mem_cons_of_mem _ h
  · exact h

theorem tool_mem_of_mem_initialConvo {sys : String} {keys : List ContextKey} {w : World}
    {s : TaskState} {t : ToolMessage} (h : .tool t ∈ initialConvo sys keys w s) :
    .tool t ∈ s.devMessages := by
  unfold initialConvo at h
  split at h
  · cases PromptBuilder.isTool_of_mem_build (tool_mem_of_mem_injectMemory h)
  · exact h

/-- The transcript a turn assembles has no tool message of its own. -/
theorem tool_mem_of_mem_assembledConvo {sys : String} {keys : List ContextKey}
    {maxDevRounds : Nat} {w : World} {s : TaskState} {t : ToolMessage}
    (h : .tool t ∈ assembledConvo sys keys maxDevRounds w s) : .tool t ∈ s.devMessages := by
  unfold assembledConvo at h
  dsimp only at h
  split at h
  · unfold appendBudgetNote at h
    split at h
    · exact tool_mem_of_mem_initialConvo h
    · rcases List.mem_append.mp h with h | h
      · exact tool_mem_of_mem_initialConvo (List.mem_of_mem_dropLast h)
      · simp at h
    · rcases List.mem_append.mp h with h | h
      · exact tool_mem_of_mem_initialConvo h
      · simp at h
  · exact tool_mem_of_mem_initialConvo h

end AgentRoom
