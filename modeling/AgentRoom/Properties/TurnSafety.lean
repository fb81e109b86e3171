import AgentRoom.Context.Raising

set_option autoImplicit false

/-! # Context management and the developer's turn

The engine runs before every model call, over whatever files and tools put into the messages.
A failing summarizer only costs the summary. Counting is not contained: under a token budget a
single special-token literal in any message ends the turn.
-/

namespace AgentRoom

/-- **When an engine raises nothing**, whatever its summarizer does: it is bounded by messages,
or every counted text can be encoded and, for a list over the budget, what is left to the tail
fits a `float`. -/
theorem apply_returns_iff (c : Counter) (e : ContextEngine) (ms : List Message) :
    (∃ out, e.applyM c ms = .ok out) ↔
      match e.base.budget with
      | .maxMessages _ => True
      | .maxTokens n _ =>
          (∀ m ∈ ms, c.Countable m) ∧
            (n < countTokens (countMessageTokens c.tokenizer) ms →
              (n - countTokens (countMessageTokens c.tokenizer) (e.base.head ms) : Int).natAbs <
                Py.floatLimit) := by
  have hiff : (∃ out, e.applyM c ms = .ok out) ↔ e.RaisesNothing c ms := by
    constructor
    · rintro ⟨out, hout⟩
      by_contra h
      obtain ⟨fault, hfault⟩ := ContextEngine.applyM_of_not_raisesNothing h
      rw [hout] at hfault
      cases hfault
    · intro h
      exact ⟨_, ContextEngine.applyM_of_raisesNothing h⟩
  rw [hiff, ContextEngine.RaisesNothing, WindowedContextEngine.CanCount,
    WindowedContextEngine.CanShare, WindowedContextEngine.shouldCompress]
  cases hb : e.base.budget with
  | maxMessages n => simp
  | maxTokens n r => simp only [decide_eq_true_eq]

/-! ## A file that names a special token -/

/-- The special tokens of `o200k_base`; one token for each character of any other text. -/
def o200kBase : Counter where
  encoding := some
    { specialTokens := ["<|endoftext|>", "<|endofprompt|>"]
      encodeOrdinary := fun text => text.toList.map Char.toNat }
  str := fun _ => ""
  strCall := fun call => call.name

/-- A budget of any number of tokens, half of them for the newest messages. -/
def tokenBudget (n : Int) : WindowedContextEngine :=
  ⟨.maxTokens n (1 / 2), 0, 6, ContextBudget.admits_half n 0 6, .double⟩

/-- What reading a tokenizer's source gives. -/
def tokenizerSource : Message :=
  .tool { content := .str "EOT = \"<|endoftext|>\"", toolCallId := "a" }

/-- **A special token in a tool's output ends the turn**, for a windowed engine and for a
summary engine with any summarizer; so does a budget that is no `float`. -/
theorem special_token_ends_turn :
    (∀ n, WindowedContextEngine.init { maxTokens := some n } = .ok (tokenBudget n)) ∧
    (ContextEngine.windowed (tokenBudget 8000)).applyM o200kBase [tokenizerSource] =
      .error .valueError ∧
    (∀ summarize, (ContextEngine.summary (tokenBudget 8000) summarize).applyM o200kBase
      [tokenizerSource] = .error .valueError) ∧
    (∀ n : Int, n ≤ -Py.floatLimit →
      (ContextEngine.windowed (tokenBudget n)).applyM o200kBase [.human "hi"] =
        .error .overflowError) := by
  have hspecial : ¬ ∀ m ∈ [tokenizerSource], o200kBase.Countable m := by
    intro h
    have htext := (h _ List.mem_cons_self).1
    exact absurd htext (by decide)
  refine ⟨fun n => (tokenBudget n).init_args, ?_, ?_, ?_⟩
  · exact Fallible.error_bind (WindowedContextEngine.shouldCompressM_of_not_canCount hspecial)
  · intro summarize
    exact Fallible.error_bind (WindowedContextEngine.shouldCompressM_of_not_canCount hspecial)
  · -- every text can be counted here, but what is left to the tail is no `float`
    intro n hn
    have hcountable : ∀ m ∈ [Message.human "hi"], o200kBase.Countable m := by
      intro m hm
      rw [List.mem_singleton.mp hm]
      exact ⟨by decide, fun h => absurd rfl h⟩
    have htokens : countTokens (countMessageTokens o200kBase.tokenizer) [.human "hi"] = 6 := rfl
    refine ContextEngine.applyM_of_not_canShare hcountable ?_ ?_
    · simp only [WindowedContextEngine.shouldCompress, ContextEngine.base, tokenBudget, htokens,
        decide_eq_true_eq]
      omega
    · intro hshare
      have hlt : (n - 0 : Int).natAbs < Py.floatLimit := hshare
      omega

end AgentRoom
