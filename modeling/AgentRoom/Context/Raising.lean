import AgentRoom.Context.Partition
import AgentRoom.Context.Tokens
import AgentRoom.Lib.Fallible

set_option autoImplicit false

/-! # Engines whose counter can raise

`tiktoken` refuses a text that holds one of its special-token literals, and a Python integer
can be too large for the `float` it is multiplied with. Here every operation of an engine is
written with these failures. What `_summarize` raises is caught where the marker is built
(`summaryMarkerText`), so a summarizer or a spill store adds no failure. An operation that does
not raise has the result of its namesake in `Context/Engine.lean`.
-/

namespace AgentRoom

open Doubles Fallible

/-- What counting and cutting can raise. -/
inductive EngineFault
  | valueError
  | overflowError
  deriving DecidableEq, Repr

/-! ## Encoding -/

/-- A `tiktoken` encoding: its special-token literals, and the tokens of a text that has
none. -/
structure Encoding where
  specialTokens : List String
  encodeOrdinary : String → List Nat

def Encoding.HasSpecial (enc : Encoding) (text : String) : Prop :=
  ∃ t ∈ enc.specialTokens, t.toList <:+: text.toList

instance (enc : Encoding) (text : String) : Decidable (enc.HasSpecial text) :=
  inferInstanceAs (Decidable (∃ t ∈ enc.specialTokens, t.toList <:+: text.toList))

/-- `encode(text)` with its default arguments. -/
def Encoding.encode (enc : Encoding) (text : String) : Except EngineFault (List Nat) :=
  if enc.HasSpecial text then .error .valueError else .ok (enc.encodeOrdinary text)

/-- `_ENCODING`, absent when `tiktoken` is, and Python's `str`. -/
structure Counter where
  encoding : Option Encoding
  str : Value → String
  strCall : ToolCall → String

namespace Counter

/-- The lengths of the texts that can be encoded. -/
def tokenizer (c : Counter) : Tokenizer where
  encodeLen := fun text =>
    match c.encoding with
    | some enc => (enc.encodeOrdinary text).length
    | none => estimateLen text
  str := c.str
  strCall := c.strCall

variable (c : Counter)

/-- `_encode_len`. -/
def encodeLen (text : String) : Except EngineFault Nat :=
  match c.encoding with
  | some enc => do
      let tokens ← enc.encode text
      pure tokens.length
  | none => pure (estimateLen text)

/-- The text the calls of a message are counted by. -/
def callsText (m : Message) : String :=
  Py.join " " (m.toolCalls.map c.strCall)

/-- `count_message_tokens`. -/
def countMessage (m : Message) : Except EngineFault Nat := do
  let text ← c.encodeLen (m.countedText c.tokenizer)
  let total := text + perMessageOverhead
  if m.toolCalls.isEmpty then pure total
  else
    let calls ← c.encodeLen (c.callsText m)
    pure (total + calls)

/-- `count_tokens`. -/
def countTokensM (ms : List Message) : Except EngineFault Nat := do
  let counts ← ms.mapM c.countMessage
  pure counts.sum

/-- The loop of `_partition_by_tokens`. -/
def growTailM (budget : Int) :
    List Message → List Message → Nat → Except EngineFault (List Message)
  | [], tail, _ => pure tail
  | msg :: rest, tail, used => do
      let cost ← c.countMessage msg
      if tail ≠ [] ∧ budget < used + cost then pure tail
      else growTailM budget rest (msg :: tail) (used + cost)

end Counter

/-! ## Cutting -/

/-- The first integers that round to no `float`, half way between the largest one and
`2 ^ 1024`. -/
def Py.floatLimit : Nat := 2 ^ 1024 - 2 ^ 970

/-- `n * r`, where `n` is turned into a `float` first. -/
def Py.mulFloat (a : Arithmetic) (n : Int) (r : ℚ) : Except EngineFault ℚ :=
  if n.natAbs < Py.floatLimit then .ok (a.mul (a.round n) r) else .error .overflowError

namespace WindowedContextEngine

variable (c : Counter) (e : WindowedContextEngine) (ms : List Message)

/-- `should_compress`. -/
def shouldCompressM : Except EngineFault Bool :=
  match e.budget with
  | .maxTokens n _ => do
      let tokens ← c.countTokensM ms
      pure (n < tokens)
  | .maxMessages n => pure (n < ms.length)

/-- The messages kept at the end, before orphaned answers are dropped. -/
def protectedTailM : Except EngineFault (List Message) :=
  match e.budget with
  | .maxMessages _ => pure (lastMessages e.protectLastN ms)
  | .maxTokens n r => do
      let used ← c.countTokensM (e.head ms)
      let share ← Py.mulFloat e.arithmetic (n - used) r
      c.growTailM (max (Py.truncate share) 0) (ms.drop (e.head ms).length).reverse [] 0

/-- `_partition` and `_partition_by_tokens`. -/
def partitionM : Except EngineFault Partition := do
  let kept ← e.protectedTailM c ms
  let tail := kept.dropWhile Message.isTool
  pure
    { head := e.head ms
      middle := (ms.take (ms.length - tail.length)).drop (e.head ms).length
      tail := tail }

end WindowedContextEngine

namespace ContextEngine

variable (c : Counter) (e : ContextEngine) (ms : List Message)

/-- `compress`. -/
def compressM : Except EngineFault (List Message) := do
  if !(← e.base.shouldCompressM c ms) then pure ms
  else
    let p ← e.base.partitionM c ms
    if p.middle.isEmpty then pure ms
    else pure (p.head ++ [e.buildMarker p.middle] ++ p.tail)

/-- `ContextEngine.apply`. -/
def applyM : Except EngineFault (List Message) := do
  if !(← e.base.shouldCompressM c ms) then pure ms
  else e.compressM c ms

end ContextEngine

/-! ## What can be counted -/

namespace Counter

variable (c : Counter)

/-- A text without a literal of the installed encoding. -/
def Encodable (text : String) : Prop :=
  ∀ enc ∈ c.encoding, ¬ enc.HasSpecial text

/-- A message whose counted texts have no such literal. -/
def Countable (m : Message) : Prop :=
  c.Encodable (m.countedText c.tokenizer) ∧ (m.toolCalls ≠ [] → c.Encodable (c.callsText m))

instance (text : String) : Decidable (c.Encodable text) :=
  match h : c.encoding with
  | none => isTrue (by intro enc henc; rw [h] at henc; cases henc)
  | some enc =>
      decidable_of_iff (¬ enc.HasSpecial text) (by
        rw [Encodable, h]
        simp)

theorem encodeLen_of_encodable {text : String} (h : c.Encodable text) :
    c.encodeLen text = .ok (c.tokenizer.encodeLen text) := by
  unfold encodeLen tokenizer
  cases henc : c.encoding with
  | none => rfl
  | some enc =>
      have hno : ¬ enc.HasSpecial text := h enc henc
      dsimp only
      rw [Encoding.encode, if_neg hno]
      rfl

theorem encodeLen_of_not_encodable {text : String} (h : ¬ c.Encodable text) :
    c.encodeLen text = .error .valueError := by
  unfold encodeLen
  cases henc : c.encoding with
  | none => exact absurd (fun enc hmem => by rw [henc] at hmem; cases hmem) h
  | some enc =>
      have hspecial : enc.HasSpecial text := by
        by_contra hno
        refine h (fun enc' hmem => ?_)
        rw [henc] at hmem
        rw [← Option.some.inj hmem]
        exact hno
      dsimp only
      rw [Encoding.encode, if_pos hspecial]
      rfl

/-- A message that can be counted has its total count. -/
theorem countMessage_of_countable {m : Message} (h : c.Countable m) :
    c.countMessage m = .ok (countMessageTokens c.tokenizer m) := by
  obtain ⟨htext, hcalls⟩ := h
  rw [countMessage, ok_bind (c.encodeLen_of_encodable htext), countMessageTokens]
  dsimp only
  by_cases hnone : m.toolCalls = []
  · rw [hnone]
    rfl
  · have hne : ¬ m.toolCalls.isEmpty = true := by rwa [List.isEmpty_iff]
    rw [if_neg hne, if_neg hne, ok_bind (c.encodeLen_of_encodable (hcalls hnone))]
    rfl

/-- A message that cannot be counted raises. -/
theorem countMessage_of_not_countable {m : Message} (h : ¬ c.Countable m) :
    c.countMessage m = .error .valueError := by
  rw [countMessage]
  by_cases htext : c.Encodable (m.countedText c.tokenizer)
  · rw [ok_bind (c.encodeLen_of_encodable htext)]
    have hcalls : m.toolCalls ≠ [] ∧ ¬ c.Encodable (c.callsText m) := by
      by_contra hno
      refine h ⟨htext, fun hne => ?_⟩
      by_contra hbad
      exact hno ⟨hne, hbad⟩
    have hne : ¬ m.toolCalls.isEmpty = true := by
      rw [List.isEmpty_iff]
      exact hcalls.1
    dsimp only
    rw [if_neg hne, error_bind (c.encodeLen_of_not_encodable hcalls.2)]
  · rw [error_bind (c.encodeLen_of_not_encodable htext)]

section

variable {ms : List Message}

theorem countTokensM_of_countable (h : ∀ m ∈ ms, c.Countable m) :
    c.countTokensM ms = .ok (countTokens (countMessageTokens c.tokenizer) ms) := by
  rw [countTokensM, ok_bind (mapM_eq_ok_map fun m hm => c.countMessage_of_countable (h m hm))]
  rfl

/-- The first message that cannot be counted ends the sum. -/
theorem countTokensM_of_not_countable (h : ¬ ∀ m ∈ ms, c.Countable m) :
    c.countTokensM ms = .error .valueError := by
  have hcounts : ms.mapM c.countMessage = .error .valueError := by
    induction ms with
    | nil => exact absurd (fun m hm => by cases hm) h
    | cons m ms ih =>
        by_cases hm : c.Countable m
        · refine mapM_cons_error (c.countMessage_of_countable hm) (ih fun hall => h ?_)
          intro m' hm'
          rcases List.mem_cons.mp hm' with rfl | hm'
          · exact hm
          · exact hall m' hm'
        · exact mapM_cons_of_error (c.countMessage_of_not_countable hm)
  rw [countTokensM, error_bind hcounts]

theorem growTailM_of_countable {budget : Int} {tail : List Message} {used : Nat}
    (h : ∀ m ∈ ms, c.Countable m) :
    c.growTailM budget ms tail used =
      .ok (growTail (countMessageTokens c.tokenizer) budget ms tail used) := by
  induction ms generalizing tail used with
  | nil => rfl
  | cons m ms ih =>
      have hm := c.countMessage_of_countable (h m List.mem_cons_self)
      have hrest : ∀ m' ∈ ms, c.Countable m' := fun m' hm' => h m' (List.mem_cons_of_mem m hm')
      rw [growTailM, ok_bind hm, growTail]
      split
      · rfl
      · exact ih hrest

end

end Counter

/-! ## What an engine raises -/

namespace WindowedContextEngine

variable {c : Counter} {e : WindowedContextEngine} {ms : List Message}

/-- A token budget counts every message. -/
def CanCount (c : Counter) (e : WindowedContextEngine) (ms : List Message) : Prop :=
  match e.budget with
  | .maxMessages _ => True
  | .maxTokens _ _ => ∀ m ∈ ms, c.Countable m

/-- What a token budget leaves after the head is turned into a `float`. -/
def CanShare (c : Counter) (e : WindowedContextEngine) (ms : List Message) : Prop :=
  match e.budget with
  | .maxMessages _ => True
  | .maxTokens n _ =>
      (n - countTokens (countMessageTokens c.tokenizer) (e.head ms) : Int).natAbs < Py.floatLimit

theorem shouldCompressM_of_canCount (h : e.CanCount c ms) :
    e.shouldCompressM c ms = .ok (e.shouldCompress (countMessageTokens c.tokenizer) ms) := by
  unfold CanCount at h
  unfold shouldCompressM shouldCompress
  cases hb : e.budget with
  | maxMessages n => rfl
  | maxTokens n r =>
      rw [hb] at h
      dsimp only
      rw [ok_bind (c.countTokensM_of_countable h)]
      rfl

theorem shouldCompressM_of_not_canCount (h : ¬ e.CanCount c ms) :
    e.shouldCompressM c ms = .error .valueError := by
  unfold CanCount at h
  unfold shouldCompressM
  cases hb : e.budget with
  | maxMessages n =>
      rw [hb] at h
      exact absurd trivial h
  | maxTokens n r =>
      rw [hb] at h
      dsimp only
      rw [error_bind (c.countTokensM_of_not_countable h)]

theorem countable_head (h : ∀ m ∈ ms, c.Countable m) : ∀ m ∈ e.head ms, c.Countable m :=
  fun m hm => h m ((e.head_isPrefix ms).subset hm)

theorem protectedTailM_of_canShare (hcount : e.CanCount c ms) (hshare : e.CanShare c ms) :
    e.protectedTailM c ms = .ok (e.protectedTail (countMessageTokens c.tokenizer) ms) := by
  unfold CanCount at hcount
  unfold CanShare at hshare
  unfold protectedTailM protectedTail
  cases hb : e.budget with
  | maxMessages n => rfl
  | maxTokens n r =>
      rw [hb] at hcount hshare
      dsimp only at hcount hshare ⊢
      have hrest : ∀ m ∈ (ms.drop (e.head ms).length).reverse, c.Countable m := fun m hm =>
        hcount m (List.mem_of_mem_drop (List.mem_reverse.mp hm))
      rw [ok_bind (c.countTokensM_of_countable (countable_head hcount)),
        ok_bind (by rw [Py.mulFloat, if_pos hshare]), c.growTailM_of_countable hrest]
      rfl

theorem protectedTailM_of_not_canShare (hcount : e.CanCount c ms) (hshare : ¬ e.CanShare c ms) :
    e.protectedTailM c ms = .error .overflowError := by
  unfold CanCount at hcount
  unfold CanShare at hshare
  unfold protectedTailM
  cases hb : e.budget with
  | maxMessages n =>
      rw [hb] at hshare
      exact absurd trivial hshare
  | maxTokens n r =>
      rw [hb] at hcount hshare
      dsimp only at hcount hshare ⊢
      rw [ok_bind (c.countTokensM_of_countable (countable_head hcount)),
        error_bind (by rw [Py.mulFloat, if_neg hshare])]

end WindowedContextEngine

namespace ContextEngine

variable {c : Counter} {e : ContextEngine} {ms : List Message}

/-- An engine raises nothing: its messages can be counted, and so can what is left to the tail
when the list is over the budget. -/
def RaisesNothing (c : Counter) (e : ContextEngine) (ms : List Message) : Prop :=
  e.base.CanCount c ms ∧
    (e.base.shouldCompress (countMessageTokens c.tokenizer) ms = true → e.base.CanShare c ms)

theorem compressM_of_canShare (hcount : e.base.CanCount c ms) (hshare : e.base.CanShare c ms) :
    e.compressM c ms = .ok (e.compress (countMessageTokens c.tokenizer) ms) := by
  rw [compressM, ok_bind (WindowedContextEngine.shouldCompressM_of_canCount hcount), compress]
  split
  · rfl
  · have hpartition : e.base.partitionM c ms =
        .ok (e.base.partition (countMessageTokens c.tokenizer) ms) := by
      rw [WindowedContextEngine.partitionM,
        ok_bind (WindowedContextEngine.protectedTailM_of_canShare hcount hshare)]
      rfl
    rw [ok_bind hpartition]
    dsimp only
    split <;> rfl

/-- **What does not raise is the compression.** -/
theorem applyM_of_raisesNothing (h : e.RaisesNothing c ms) :
    e.applyM c ms = .ok (e.apply (countMessageTokens c.tokenizer) ms) := by
  obtain ⟨hcount, hshare⟩ := h
  rw [applyM, ok_bind (WindowedContextEngine.shouldCompressM_of_canCount hcount), apply]
  split
  · rfl
  · rename_i hover
    exact compressM_of_canShare hcount (hshare (by simpa using hover))

theorem applyM_of_not_canShare (hcount : e.base.CanCount c ms)
    (hover : e.base.shouldCompress (countMessageTokens c.tokenizer) ms = true)
    (hshare : ¬ e.base.CanShare c ms) : e.applyM c ms = .error .overflowError := by
  have hgate := WindowedContextEngine.shouldCompressM_of_canCount hcount
  rw [hover] at hgate
  have hpartition : e.base.partitionM c ms = .error .overflowError := by
    rw [WindowedContextEngine.partitionM,
      error_bind (WindowedContextEngine.protectedTailM_of_not_canShare hcount hshare)]
  rw [applyM, ok_bind hgate]
  show e.compressM c ms = .error .overflowError
  rw [compressM, ok_bind hgate]
  exact error_bind hpartition

theorem applyM_of_not_raisesNothing (h : ¬ e.RaisesNothing c ms) :
    ∃ fault, e.applyM c ms = .error fault := by
  by_cases hcount : e.base.CanCount c ms
  · have hover : e.base.shouldCompress (countMessageTokens c.tokenizer) ms = true ∧
        ¬ e.base.CanShare c ms := by
      by_contra hno
      refine h ⟨hcount, fun hs => ?_⟩
      by_contra hshare
      exact hno ⟨hs, hshare⟩
    exact ⟨.overflowError, applyM_of_not_canShare hcount hover.1 hover.2⟩
  · exact ⟨.valueError,
      error_bind (WindowedContextEngine.shouldCompressM_of_not_canCount hcount)⟩

end ContextEngine

end AgentRoom
