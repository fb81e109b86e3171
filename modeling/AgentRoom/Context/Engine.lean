import AgentRoom.Lib.Doubles
import AgentRoom.Messages
import Mathlib.Data.List.DropRight
import Mathlib.Algebra.Order.Ring.Rat
import Mathlib.Tactic.Linarith

set_option autoImplicit false

/-! # Context engines

An engine bounds the message list of one model call by a number of messages or by a number of
tokens. A list over the budget is cut into a head, a middle and a tail, and one human message
stands for the middle: a count of what was omitted (`WindowedContextEngine`) or a summary of
it (`SummaryContextEngine`). The counter of one message is a parameter of every operation. The
share of the tokens that the newest messages get is a product of `float`s, so an engine says
how it is kept: as a double, or exactly.
-/

namespace AgentRoom

open Doubles

/-! ## Construction -/

/-- The one budget that is set. Only a token budget uses the target ratio. -/
inductive ContextBudget
  | maxMessages (n : Int)
  | maxTokens (n : Int) (targetRatio : ℚ)

/-- A message budget leaves room for both protected bands and the marker; the target ratio of
a token budget is in `(0, 1]`. -/
def ContextBudget.Admits (protectFirstN protectLastN : Nat) : ContextBudget → Prop
  | .maxMessages n => (protectFirstN : Int) + protectLastN + 1 ≤ n
  | .maxTokens _ r => 0 < r ∧ r ≤ 1

instance (f l : Nat) : (b : ContextBudget) → Decidable (b.Admits f l)
  | .maxMessages n => inferInstanceAs (Decidable ((f : Int) + l + 1 ≤ n))
  | .maxTokens _ r => inferInstanceAs (Decidable (0 < r ∧ r ≤ 1))

/-- The default ratio is in range. -/
theorem ContextBudget.admits_half (n : Int) (f l : Nat) :
    (ContextBudget.maxTokens n (1 / 2)).Admits f l := by
  norm_num [ContextBudget.Admits]

/-- An engine the constructor accepts. -/
structure WindowedContextEngine where
  budget : ContextBudget
  protectFirstN : Nat
  protectLastN : Nat
  admits : budget.Admits protectFirstN protectLastN
  arithmetic : Arithmetic := .double

/-- The constructor's keyword arguments. A `float` is read as the rational it denotes. -/
structure EngineArgs where
  maxMessages : Option Int := none
  maxTokens : Option Int := none
  protectFirstN : Int := 0
  protectLastN : Int := 6
  targetRatio : ℚ := 1 / 2

/-- The `ValueError`s of the constructor. -/
inductive EngineError
  | budget
  | protectFirst (got : Int)
  | protectLast (got : Int)
  | maxMessages (got minBudget : Int)
  | targetRatio (got : ℚ)
  deriving DecidableEq

/-- The text of a `ValueError`; `str` is that of a `float`. -/
def EngineError.text (str : ℚ → String) : EngineError → String
  | .budget => "set exactly one of max_messages or max_tokens"
  | .protectFirst n => s!"protect_first_n must be >= 0, got {n}"
  | .protectLast n => s!"protect_last_n must be >= 0, got {n}"
  | .maxMessages n m => s!"max_messages ({n}) must be >= " ++
      s!"protect_first_n + protect_last_n + 1 ({m}); " ++
      "otherwise the compressed result would itself trigger " ++
      "another compression (idempotency violation)."
  | .targetRatio r => "target_ratio must be in (0, 1], got " ++ str r

/-- The budget the arguments set, when it is exactly one. -/
def EngineArgs.budget (a : EngineArgs) : Option ContextBudget :=
  match a.maxMessages, a.maxTokens with
  | some n, none => some (.maxMessages n)
  | none, some n => some (.maxTokens n a.targetRatio)
  | _, _ => none

/-- Why a budget is refused. -/
def ContextBudget.refusal (f l : Int) : ContextBudget → EngineError
  | .maxMessages n => .maxMessages n (f + l + 1)
  | .maxTokens _ r => .targetRatio r

namespace WindowedContextEngine

/-- `WindowedContextEngine.__init__`. -/
def init (a : EngineArgs) (arithmetic : Arithmetic := .double) :
    Except EngineError WindowedContextEngine :=
  match a.budget with
  | none => .error .budget
  | some b =>
      if a.protectFirstN < 0 then .error (.protectFirst a.protectFirstN)
      else if a.protectLastN < 0 then .error (.protectLast a.protectLastN)
      else if h : b.Admits a.protectFirstN.toNat a.protectLastN.toNat then
        .ok ⟨b, _, _, h, arithmetic⟩
      else .error (b.refusal a.protectFirstN a.protectLastN)

/-- Arguments that build the engine. -/
def args (e : WindowedContextEngine) : EngineArgs :=
  match e.budget with
  | .maxMessages n =>
      { maxMessages := some n, protectFirstN := e.protectFirstN, protectLastN := e.protectLastN }
  | .maxTokens n r =>
      { maxTokens := some n, protectFirstN := e.protectFirstN, protectLastN := e.protectLastN,
        targetRatio := r }

/-- The engines are exactly what the constructor accepts. -/
theorem init_args (e : WindowedContextEngine) : init e.args e.arithmetic = .ok e := by
  obtain ⟨b, f, l, h, a⟩ := e
  have hf : ¬ (f : Int) < 0 := by omega
  have hl : ¬ (l : Int) < 0 := by omega
  cases b with
  | maxMessages n => simp [init, args, EngineArgs.budget, hf, hl, h]
  | maxTokens n r => simp [init, args, EngineArgs.budget, hf, hl, h]

end WindowedContextEngine

/-- The engines that compress. A summary engine is a windowed engine with a summarizer:
`_summarize` of the dropped span, `none` when it raises. -/
inductive ContextEngine
  | windowed (e : WindowedContextEngine)
  | summary (e : WindowedContextEngine) (summarize : List Message → Option String)

/-- The inherited part of an engine. -/
def ContextEngine.base : ContextEngine → WindowedContextEngine
  | .windowed e => e
  | .summary e _ => e

/-! ## The marker -/

/-- `_TRUNCATED_TEMPLATE.format(n=n)`. -/
def truncatedText (n : Nat) : String := s!"[context truncated: {n} messages omitted]"

def summaryHeader : String := "[context summary — earlier turns compacted]"

/-- `SUMMARY_FOOTER_TEMPLATE.format(n=n)`. -/
def summaryFooter (n : Nat) : String := s!"[end of summary; {n} earlier messages omitted]"

/-- `SummaryContextEngine._build_marker`: without a summary the marker is the count. -/
def summaryMarkerText (summarize : List Message → Option String) (middle : List Message) :
    String :=
  if middle.isEmpty then truncatedText middle.length
  else
    match summarize middle with
    | none => truncatedText middle.length
    | some text =>
        let body := Py.strip text
        if body = "" then truncatedText middle.length
        else summaryHeader ++ "\n" ++ body ++ "\n" ++ summaryFooter middle.length

/-- `_build_marker`. -/
def ContextEngine.buildMarker (e : ContextEngine) (middle : List Message) : Message :=
  match e with
  | .windowed _ => .human (truncatedText middle.length)
  | .summary _ summarize => .human (summaryMarkerText summarize middle)

/-! ## Cutting a list -/

/-- `int(x)` of a `float`. -/
def Py.truncate (q : ℚ) : Int := q.num.tdiv q.den

section

variable (count : Message → Nat)

/-- `count_tokens`. -/
def countTokens (ms : List Message) : Nat := (ms.map count).sum

/-- The greedy loop of `_partition_by_tokens` over the messages not yet taken, newest first:
the newest message is always taken. -/
def growTail (budget : Int) : List Message → List Message → Nat → List Message
  | [], tail, _ => tail
  | msg :: rest, tail, used =>
      -- without the first condition a long last message would leave no tail at all
      if tail ≠ [] ∧ budget < used + count msg then tail
      else growTail budget rest (msg :: tail) (used + count msg)

/-- The two kept parts of a list and what stood between them. -/
structure Partition where
  head : List Message
  middle : List Message
  tail : List Message

namespace WindowedContextEngine

/-- `should_compress`. -/
def shouldCompress (e : WindowedContextEngine) (ms : List Message) : Bool :=
  match e.budget with
  | .maxTokens n _ => n < countTokens count ms
  | .maxMessages n => n < ms.length

/-- The protected head, without the calls at its end whose answers are dropped. -/
def head (e : WindowedContextEngine) (ms : List Message) : List Message :=
  (ms.take e.protectFirstN).rdropWhile Message.isAiWithToolCalls

/-- The last messages, `messages[-n:] if n > 0 else []`. -/
def lastMessages (n : Nat) (ms : List Message) : List Message :=
  if 0 < n then ms.drop (ms.length - n) else []

/-- The share of `n` tokens that `target_ratio` gives the tail, `max(int(n * target_ratio), 0)`. -/
def share (e : WindowedContextEngine) (n : Int) (targetRatio : ℚ) : Int :=
  max (Py.truncate (e.arithmetic.mul (e.arithmetic.round n) targetRatio)) 0

/-- The messages kept at the end, before orphaned answers are dropped. -/
def protectedTail (e : WindowedContextEngine) (ms : List Message) : List Message :=
  match e.budget with
  | .maxMessages _ => lastMessages e.protectLastN ms
  | .maxTokens n r =>
      let budget := e.share (n - countTokens count (e.head ms)) r
      growTail count budget (ms.drop (e.head ms).length).reverse [] 0

/-- The kept tail: it does not start with an answer. -/
def tail (e : WindowedContextEngine) (ms : List Message) : List Message :=
  (e.protectedTail count ms).dropWhile Message.isTool

/-- `_partition` and `_partition_by_tokens`. -/
def partition (e : WindowedContextEngine) (ms : List Message) : Partition :=
  { head := e.head ms
    middle := (ms.take (ms.length - (e.tail count ms).length)).drop (e.head ms).length
    tail := e.tail count ms }

end WindowedContextEngine

/-! ## Compressing -/

namespace ContextEngine

/-- `compress`. -/
def compress (e : ContextEngine) (ms : List Message) : List Message :=
  if !e.base.shouldCompress count ms then ms
  else
    let p := e.base.partition count ms
    -- a marker for nothing would only make the list longer
    if p.middle.isEmpty then ms
    else p.head ++ [e.buildMarker p.middle] ++ p.tail

/-- `ContextEngine.apply`. -/
def apply (e : ContextEngine) (ms : List Message) : List Message :=
  if !e.base.shouldCompress count ms then ms
  else e.compress count ms

theorem apply_eq_compress (e : ContextEngine) (ms : List Message) :
    e.apply count ms = e.compress count ms := by
  unfold apply
  split
  · rename_i h
    rw [compress, if_pos h]
  · rfl

end ContextEngine

end

end AgentRoom
