import AgentRoom.Messages
import AgentRoom.Schemas
import AgentRoom.Server.Budget
import Mathlib.Data.Finset.Insert

set_option autoImplicit false

/-! # The LLM transport

`invoke` hands a reply on after its usage was recorded. `structured` asks for a value of a
schema: through the provider's structured output, retried on parser errors, and where that is
not supported through a prompt for JSON. A transport remembers the models that needed the
prompt. What the provider does, call by call, is given from outside.
-/

namespace AgentRoom

/-- What a call raised: whether it is an `OutputParserException`, and its `str`. -/
structure Raised where
  parser : Bool := false
  text : String
  deriving DecidableEq, Repr

/-- `_structured_output_unsupported`. -/
def Raised.structuredOutputUnsupported (exc : Raised) : Bool :=
  exc.parser || decide (Py.Contains (Py.lower exc.text) "tool_choice") ||
    decide (Py.Contains (Py.lower exc.text) "thinking mode") ||
    decide (Py.Contains (Py.lower exc.text) "structured output")

/-- A `(role, model_override)` key. -/
abbrev ModelKey := Role × Option String

structure LangChainTransport where
  budget : Option BudgetTracker := none
  needsJsonFallback : Finset ModelKey := ∅

/-! ## `invoke` -/

/-- A reply, as far as it is recorded: `_extract_usage` and the number of its tool calls. -/
structure Response where
  usage : Option Usage := none
  toolCalls : Nat := 0
  deriving DecidableEq, Repr

inductive InvokeError
  | provider (exc : Raised)
  | budget (exc : BudgetExceededError)
  deriving DecidableEq

/-- `invoke`, for what the model's `ainvoke` does. -/
def LangChainTransport.invoke (t : LangChainTransport) (reply : Except Raised Response) :
    Except InvokeError Response × LangChainTransport :=
  match reply with
  | .error exc => (.error (.provider exc), t)
  | .ok msg =>
      match t.budget with
      | none => (.ok msg, t)
      | some tracker =>
          match tracker.account msg.usage msg.toolCalls with
          | (some exc, _, tracker) => (.error (.budget exc), { t with budget := some tracker })
          | (none, _, tracker) => (.ok msg, { t with budget := some tracker })

/-! ## `structured` -/

/-- `_message_text`; `str` is Python's. -/
def messageText (str : Value → String) (m : AIMessage) : String :=
  match m.content with
  | .str s => s
  | .blocks bs => Py.join "" (bs.filterMap fun block =>
      match block with
      | .str s => some s
      | .dict fields =>
          if (fields.lookup "type").bind Value.asStr? = some "text" then
            some (match fields.lookup "text" with
              | none => ""
              | some (.str s) => s
              | some v => str v)
          else none)

/-- A call of `structured`, and what it meets: whether the model is resolved and its structured
output can be built, what each primary call does, what each call with the JSON prompt replies,
and how the schema's parser reads a reply. -/
structure StructuredRequest (S : Type) where
  role : Role
  modelOverride : Option String := none
  attempts : Int := 2
  resolve : Option Raised := none
  withStructuredOutput : Option Raised := none
  primary : Nat → Except Raised (Option S)
  ainvoke : Nat → Except Raised AIMessage
  str : Value → String
  parse : String → Except Raised S

namespace StructuredRequest

variable {S : Type} (r : StructuredRequest S)

def key : ModelKey := (r.role, r.modelOverride)

/-- The `ValueError` of `retry_on_parser_error`. -/
def tooFewAttempts : Raised :=
  { text := s!"attempts must be >= 1, got {r.attempts}" }

/-- `ainvoke` of a runnable that may be called `n + 1` more times, `k` calls after the first:
only a parser error is retried. -/
def retry : Nat → Nat → Except Raised (Option S) × Nat
  | 0, k => (r.primary k, k + 1)
  | n + 1, k =>
      match r.primary k with
      | .error exc => if exc.parser then retry n (k + 1) else (.error exc, k + 1)
      | .ok result => (.ok result, k + 1)

/-- The body of the first `try`: the result or what was raised, and the number of LLM calls. -/
def callPrimary : Except Raised (Option S) × Nat :=
  match r.withStructuredOutput with
  | some exc => (.error exc, 0)
  | none =>
      if r.attempts < 1 then (.error r.tooFewAttempts, 0)
      else r.retry (r.attempts.toNat - 1) 0

/-- The loop of `_structured_via_json_prompt`, with `n` calls left after `k` ones. -/
def promptLoop : Nat → Nat → Raised → Except Raised (Option S) × Nat
  | 0, k, lastExc => (.error lastExc, k)
  | n + 1, k, _ =>
      match r.ainvoke k with
      | .error exc => (.error exc, k + 1)
      | .ok response =>
          match r.parse (messageText r.str response) with
          | .ok value => (.ok (some value), k + 1)
          | .error exc => if exc.parser then promptLoop n (k + 1) exc else (.error exc, k + 1)

/-- `_structured_via_json_prompt`. The loop runs at least once, so `last_exc` is set when it
runs out. -/
def viaJsonPrompt : Except Raised (Option S) × Nat :=
  r.promptLoop (max r.attempts 1).toNat 0 { text := "" }

end StructuredRequest

/-- What a call of `structured` did: its result, the LLM calls it made, and whether its model
is remembered as one that needs the JSON prompt. -/
structure StructuredCall (S : Type) where
  request : StructuredRequest S
  result : Except Raised (Option S)
  primaryCalls : Nat := 0
  fallbackCalls : Nat := 0
  remembered : Bool

namespace LangChainTransport

variable {S : Type}

/-- The JSON prompt, after some primary calls. -/
def fallback (t : LangChainTransport) (r : StructuredRequest S) (primaryCalls : Nat) :
    StructuredCall S × LangChainTransport :=
  let t := { t with needsJsonFallback := insert r.key t.needsJsonFallback }
  (⟨r, r.viaJsonPrompt.1, primaryCalls, r.viaJsonPrompt.2, true⟩, t)

/-- `structured`. -/
def structured (t : LangChainTransport) (r : StructuredRequest S) :
    StructuredCall S × LangChainTransport :=
  let remembered := decide (r.key ∈ t.needsJsonFallback)
  match r.resolve with
  | some exc => (⟨r, .error exc, 0, 0, remembered⟩, t)
  | none =>
      if remembered then t.fallback r 0
      else
        match r.callPrimary with
        | (.error exc, calls) =>
            if exc.structuredOutputUnsupported then t.fallback r calls
            else (⟨r, .error exc, calls, 0, remembered⟩, t)
        | (.ok (some value), calls) => (⟨r, .ok (some value), calls, 0, remembered⟩, t)
        | (.ok none, calls) => t.fallback r calls

end LangChainTransport

/-! ## Calls of both kinds -/

/-- A call, with what the provider does. -/
inductive TransportCall (S : Type)
  | invoke (reply : Except Raised Response)
  | structured (r : StructuredRequest S)

namespace TransportCall

variable {S : Type}

def isInvoke : TransportCall S → Bool
  | .invoke _ => true
  | .structured _ => false

/-- The reply an `invoke` got. -/
def response? : TransportCall S → Option Response
  | .invoke (.ok msg) => some msg
  | .invoke (.error _) => none
  | .structured _ => none

end TransportCall

namespace LangChainTransport

variable {S : Type}

/-- What a call raises, and the transport after it. -/
def call (t : LangChainTransport) : TransportCall S → Option InvokeError × LangChainTransport
  | .invoke reply =>
      match t.invoke reply with
      | (.error exc, t) => (some exc, t)
      | (.ok _, t) => (none, t)
  | .structured r =>
      (match (t.structured r).1.result with
        | .error exc => some (.provider exc)
        | .ok _ => none,
       (t.structured r).2)

/-- The transport after some calls. -/
def after (t : LangChainTransport) (calls : List (TransportCall S)) : LangChainTransport :=
  calls.foldl (fun t c => (t.call c).2) t

/-- What a call raises after others. -/
def raises (t : LangChainTransport) (before : List (TransportCall S)) (c : TransportCall S) :
    Option InvokeError :=
  ((t.after before).call c).1

end LangChainTransport

end AgentRoom
