import AgentRoom.World
import AgentRoom.Prompt.Developer

set_option autoImplicit false

/-! # The delivery role -/

namespace AgentRoom

/-- The delivery's human message. -/
def deliveryPrompt (extraContextKeys : List ContextKey) (s : TaskState) : String :=
  let reviewBlock :=
    match s.review with
    | some review => "\n# Reviewer notes\n" ++ review.feedback ++ "\n"
    | none => ""
  let prompt := "# Title\n" ++ s.title ++ "\n\n# Plan\n" ++ Py.strOpt s.plan ++
    "\n\n# Code\n" ++ Py.strOpt s.code ++ "\n" ++ reviewBlock
  let extra := formatExtraContext s extraContextKeys
  if extra = "" then prompt else prompt ++ "\n" ++ extra

/-- `delivery`, with the `output` checkpoint on the final text. -/
def delivery (systemPrompt : String) (extraContextKeys : List ContextKey) (b : Bindings)
    (w : World) (s : TaskState) : Except NodeError NodeRun :=
  let msgs := [.system systemPrompt, .human (deliveryPrompt extraContextKeys s)]
  let content := w.message.content.extractText
  let completed : Event := { type := "delivery_completed", role := some .delivery }
  let finish (events : List Event) : NodeRun :=
    { calls := [invoked .delivery msgs w.message]
      update :=
        { delivery := some content
          artifacts := [{ kind := .delivery, role := .delivery, content := content }]
          events := events } }
  match b.guardrail.check content .output with
  | .error finding => .error (.guardrailTripwire finding)
  | .ok none => .ok (finish [completed])
  | .ok (some finding) =>
      .ok (finish [completed,
        { type := "guardrail_triggered", role := some .delivery, payload := finding.payload }])

/-- What a delivery that goes through writes; a finding that does not block is recorded. -/
theorem delivery_ok {systemPrompt : String} {extraContextKeys : List ContextKey} {b : Bindings}
    {w : World} {s : TaskState} {run : NodeRun}
    (h : delivery systemPrompt extraContextKeys b w s = .ok run) :
    ∃ (calls : List LlmCall) (findings : List Event),
      (∀ ev ∈ findings, ev.type = "guardrail_triggered") ∧
      run =
        { calls := calls
          update :=
            { delivery := some w.message.content.extractText
              artifacts := [{ kind := .delivery, role := .delivery,
                              content := w.message.content.extractText }]
              events := { type := "delivery_completed", role := some .delivery } :: findings } } := by
  unfold delivery at h
  dsimp only at h
  split at h
  · cases h
  · cases h
    exact ⟨_, [], List.forall_mem_nil _, rfl⟩
  · cases h
    exact ⟨_, [_], List.forall_mem_singleton.mpr rfl, rfl⟩

/-- The delivery with the default bindings. -/
theorem delivery_default (systemPrompt : String) (extraContextKeys : List ContextKey) (w : World)
    (s : TaskState) :
    delivery systemPrompt extraContextKeys {} w s = .ok
      (let msgs := [.system systemPrompt, .human (deliveryPrompt extraContextKeys s)]
       let content := w.message.content.extractText
       { calls := [invoked .delivery msgs w.message]
         update :=
           { delivery := some content
             artifacts := [{ kind := .delivery, role := .delivery, content := content }]
             events := [{ type := "delivery_completed", role := some .delivery }] } }) := by
  have hcheck := Guardrail.check_off (g := ({} : Guardrail)) rfl
    w.message.content.extractText .output
  simp [delivery, hcheck]

end AgentRoom
