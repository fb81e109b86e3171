import AgentRoom.State
import AgentRoom.Guardrail

set_option autoImplicit false

/-! # What a node sees of the outside world

A node is a function of the state and of what the outside world answers while it runs: the
model's replies, the oracle's exit, the tools' results. `World` holds one answer of each
kind; a node reads those it asks for. What a node did is a `NodeRun`: its model calls, the
tool bodies it started, and either its update or the interrupt it stopped at.
-/

namespace AgentRoom

/-- How one attempt to run the oracle's command ends, where it does not raise. -/
inductive OracleOutcome
  | rejected (reason : String)
  | failedToStart (reason : String)
  | timedOut (argv : String)
  | exited (returncode : Int) (stdout : String)

/-- How a tool call ends: its arguments are refused before the body runs, or the body returns
or raises. -/
inductive ToolOutcome
  | invalidArgs (reason : String)
  | returned (content : Content)
  | raised (reason : String)

/-- The answers of the outside world during one superstep. -/
structure World where
  /-- The reply of `tx.invoke`. -/
  message : AIMessage
  /-- The reply of `tx.structured` for each schema. -/
  review : ReviewerDecision
  focus : FocusCheck
  gate : PlannerGateOutput
  stuck : StuckDecision
  oracle : OracleOutcome
  /-- The two memory layers: `system_prompt_block()` and `prefetch(query)`. -/
  curated : String := ""
  prefetch : String := ""
  tool : ToolCall → ToolOutcome
  /-- `json.dumps(value, ensure_ascii=False)`. -/
  dumps : Value → String
  /-- Some call of the node raised, and the node with it. -/
  raises : Option String := none

/-- A world that approves of everything. -/
def World.agreeable : World where
  message := { content := .str "done" }
  review := { decision := .approved, feedback := "fine" }
  focus := { isFullySpecified := true }
  gate := { plan := "done" }
  stuck := { action := .continue, reasoning := "carry on" }
  oracle := .exited 0 ""
  tool := fun _ => .returned (.str "done")
  dumps := fun _ => ""

/-- Why a superstep does not complete. -/
inductive NodeError
  | guardrailTripwire (finding : GuardrailFinding)
  | raised (reason : String)
  | nothingScheduled
  | noSuchNode
  | noSuchBranch
  | typeError
  | valueError
  deriving DecidableEq, Repr

/-- One call of a model. A structured call has no message as its reply. -/
structure LlmCall where
  role : Role
  /-- The list the node assembled. -/
  assembled : List Message
  /-- The list the model received, after the context engine. -/
  messages : List Message
  toolsBound : Bool := false
  reply : Option AIMessage := none

/-- What a node did. An interrupted node has no update. -/
structure NodeRun where
  calls : List LlmCall := []
  toolRuns : List ToolCall := []
  update : Update := {}
  interrupt : Option ToolCall := none

/-- The parts of `RoleBindings` the nodes use. -/
structure Bindings where
  guardrail : Guardrail := {}
  contextEngine : World → List Message → Except NodeError (List Message) := fun _ msgs => .ok msgs

/-- The call log entry of `tx.invoke(role, messages)` without tools. -/
def invoked (role : Role) (messages : List Message) (reply : AIMessage) : LlmCall :=
  { role := role, assembled := messages, messages := messages, reply := some reply }

/-- The call log entry of `tx.structured(role, schema, messages)`. -/
def structuredCall (role : Role) (messages : List Message) : LlmCall :=
  { role := role, assembled := messages, messages := messages }

@[simp] theorem invoked_role (role : Role) (messages : List Message) (reply : AIMessage) :
    (invoked role messages reply).role = role := rfl

@[simp] theorem structuredCall_role (role : Role) (messages : List Message) :
    (structuredCall role messages).role = role := rfl

/-- The payload of a `guardrail_triggered` event. -/
def GuardrailFinding.payload (f : GuardrailFinding) : List (String × Value) :=
  [("category", .str f.category.text), ("pattern", .str f.pattern),
    ("checkpoint", .str f.checkpoint.text)]

/-- `str(GuardrailTripwire(finding))`. -/
def GuardrailFinding.tripwireText (f : GuardrailFinding) : String :=
  "guardrail blocked: " ++ f.category.text ++ " pattern " ++ Py.repr f.pattern ++
    " at checkpoint " ++ Py.repr f.checkpoint.text

end AgentRoom
