import AgentRoom.Llm.Transport
import AgentRoom.Properties.StructuredCalls
import Mathlib.Tactic.Linarith

set_option autoImplicit false

/-! # Where the budget trips

The first call that raises `BudgetExceededError` is the first one after which a total is over
its ceiling. Tokens and cost are checked after every reply, tool calls after the replies that
have some: a negative ceiling for tool calls, exceeded from the start, is noticed with the
first of them.
-/

namespace AgentRoom

open Transition

variable {S : Type}

/-! ## Totals -/

/-- What a reply adds to a dimension. -/
def Budget.used (b : Budget) (dim : BudgetDimension) (msg : Response) : ℚ :=
  match dim with
  | .maxTokens => match msg.usage with
      | some u => u.totalTokens
      | none => 0
  | .maxToolCalls => msg.toolCalls
  | .maxCostUsd => match msg.usage with
      | some u => b.cost u
      | none => 0

/-- The total of a dimension over the replies of some calls. -/
def Budget.cumulative (b : Budget) (dim : BudgetDimension) (calls : List (TransportCall S)) : ℚ :=
  ((calls.filterMap TransportCall.response?).map (b.used dim)).sum

/-- A ceiling is set and exceeded. -/
def Budget.Crossed (b : Budget) (dim : BudgetDimension) (calls : List (TransportCall S)) : Prop :=
  ∃ limit ∈ b.limit dim, limit < b.cumulative dim calls

/-- The first exceeded ceiling, in the order tokens, cost, tool calls. -/
def Budget.FirstCrossed (b : Budget) (calls : List (TransportCall S)) : BudgetDimension → Prop
  | .maxTokens => b.Crossed .maxTokens calls
  | .maxCostUsd => ¬ b.Crossed .maxTokens calls ∧ b.Crossed .maxCostUsd calls
  | .maxToolCalls =>
      ¬ b.Crossed .maxTokens calls ∧ ¬ b.Crossed .maxCostUsd calls ∧ b.Crossed .maxToolCalls calls

/-- After the reply of a call a ceiling is exceeded. -/
def Budget.Crosses (b : Budget) (before : List (TransportCall S)) (c : TransportCall S)
    (dim : BudgetDimension) : Prop :=
  ∃ msg, c.response? = some msg ∧ b.FirstCrossed (before ++ [c]) dim

/-- The same, where exceeded tool calls count only after a reply that has some. -/
def Budget.Trips (b : Budget) (before : List (TransportCall S)) (c : TransportCall S)
    (dim : BudgetDimension) : Prop :=
  ∃ msg, c.response? = some msg ∧ b.FirstCrossed (before ++ [c]) dim ∧
    (dim = .maxToolCalls → msg.toolCalls ≠ 0)

/-- A call raises `BudgetExceededError`. -/
def LangChainTransport.RaisesExceeded (t : LangChainTransport) (before : List (TransportCall S))
    (c : TransportCall S) (dim : BudgetDimension) : Prop :=
  ∃ exc, t.raises before c = some (.budget exc) ∧ exc.dimension = dim

/-- A transport with a fresh tracker, which adds up exactly. -/
def budgetedTransport (b : Budget) : LangChainTransport :=
  { budget := some { budget := some b, arithmetic := .exact } }

namespace Budget

variable (b : Budget) {dim : BudgetDimension} {calls before : List (TransportCall S)}
  {c : TransportCall S}

@[simp]
theorem cumulative_nil : b.cumulative dim ([] : List (TransportCall S)) = 0 := rfl

theorem cumulative_snoc_some {msg : Response} (h : c.response? = some msg) :
    b.cumulative dim (calls ++ [c]) = b.cumulative dim calls + b.used dim msg := by
  simp [cumulative, List.filterMap_append, h]

theorem cumulative_snoc_none (h : c.response? = none) :
    b.cumulative dim (calls ++ [c]) = b.cumulative dim calls := by
  simp [cumulative, List.filterMap_append, h]

end Budget

/-! ## The tracker -/

/-- A transport whose tracker holds the totals of some calls. -/
def Tracks (b : Budget) (t : LangChainTransport) (calls : List (TransportCall S)) : Prop :=
  ∃ tracker, t.budget = some tracker ∧ tracker.budget = some b ∧ tracker.arithmetic = .exact ∧
    ∀ dim, tracker.total dim = b.cumulative dim calls

theorem tracks_budgetedTransport (b : Budget) :
    Tracks b (budgetedTransport b) ([] : List (TransportCall S)) := by
  refine ⟨{ budget := some b, arithmetic := .exact }, rfl, rfl, rfl, ?_⟩
  intro dim
  cases dim <;> simp [BudgetTracker.total]

namespace BudgetTracker

variable {b : Budget} {t : BudgetTracker}

/-- A ceiling is set and the tracker's total is over it. -/
def Over (t : BudgetTracker) (b : Budget) (dim : BudgetDimension) : Prop :=
  ∃ limit ∈ b.limit dim, limit < t.total dim

/-- A check raises for its dimension when the total is over the ceiling, and only then. -/
def Checks (check : Option BudgetExceededError) (t : BudgetTracker) (b : Budget)
    (dim : BudgetDimension) : Prop :=
  (check = none ∧ ¬ t.Over b dim) ∨ ∃ exc, check = some exc ∧ exc.dimension = dim ∧ t.Over b dim

/-- The check of one ceiling. -/
theorem Checks.of_limit {α : Type*} {limit : Option α} {exceeds : α → Prop}
    [DecidablePred exceeds] {error : α → BudgetExceededError} {dim : BudgetDimension}
    (hdim : ∀ l, (error l).dimension = dim)
    (hover : t.Over b dim ↔ ∃ l, limit = some l ∧ exceeds l) :
    Checks (limit.bind fun l => if exceeds l then some (error l) else none) t b dim := by
  unfold Checks
  rw [hover]
  cases limit with
  | none => exact Or.inl ⟨rfl, fun ⟨l, hl, _⟩ => by cases hl⟩
  | some l =>
      rw [Option.bind_some]
      by_cases hl : exceeds l
      · rw [if_pos hl]
        exact Or.inr ⟨error l, rfl, hdim l, l, rfl, hl⟩
      · rw [if_neg hl]
        refine Or.inl ⟨rfl, ?_⟩
        rintro ⟨l', hlimit, hl'⟩
        exact hl (Option.some.inj hlimit ▸ hl')

theorem tokensExceeded_checks : Checks (t.tokensExceeded b) t b .maxTokens := by
  have hcheck : t.tokensExceeded b = b.maxTokens.bind fun limit =>
      if limit < t.totalTokens then some ⟨.maxTokens, limit, t.totalTokens⟩ else none := by
    unfold tokensExceeded
    cases b.maxTokens <;> rfl
  rw [hcheck]
  exact .of_limit (fun _ => rfl) (by simp [Over, Budget.limit, total])

theorem costExceeded_checks : Checks (t.costExceeded b) t b .maxCostUsd := by
  have hcheck : t.costExceeded b = b.maxCostUsd.bind fun limit =>
      if limit < t.costUsd then some ⟨.maxCostUsd, limit, roundTo6 t.arithmetic t.costUsd⟩
      else none := by
    unfold costExceeded
    cases b.maxCostUsd <;> rfl
  rw [hcheck]
  exact .of_limit (fun _ => rfl) (by simp [Over, Budget.limit, total])

theorem toolCallsExceeded_checks : Checks (t.toolCallsExceeded b) t b .maxToolCalls := by
  have hcheck : t.toolCallsExceeded b = b.maxToolCalls.bind fun limit =>
      if limit < t.toolCalls then some ⟨.maxToolCalls, limit, t.toolCalls⟩ else none := by
    unfold toolCallsExceeded
    cases b.maxToolCalls <;> rfl
  rw [hcheck]
  exact .of_limit (fun _ => rfl) (by simp [Over, Budget.limit, total])

/-- The tracker with a reply's usage and tool calls. -/
def addResponse (t : BudgetTracker) (b : Budget) (msg : Response) : BudgetTracker :=
  { t.add b msg.usage with toolCalls := t.toolCalls + msg.toolCalls }

theorem add_budget (u : Option Usage) : (t.add b u).budget = t.budget := by
  cases u <;> rfl

theorem addResponse_budget (msg : Response) : (t.addResponse b msg).budget = t.budget :=
  add_budget msg.usage

theorem addResponse_arithmetic (msg : Response) :
    (t.addResponse b msg).arithmetic = t.arithmetic := by
  obtain ⟨usage, n⟩ := msg
  cases usage <;> rfl

theorem total_addResponse (ht : t.arithmetic = .exact) (msg : Response) (dim : BudgetDimension) :
    (t.addResponse b msg).total dim = t.total dim + b.used dim msg := by
  obtain ⟨usage, n⟩ := msg
  cases usage <;> cases dim <;>
    simp [addResponse, add, total, Budget.used, ht, Budget.addCost_exact]

theorem add_toolCalls (u : Option Usage) : (t.add b u).toolCalls = t.toolCalls := by
  cases u <;> rfl

/-- The checks of tokens and cost do not look at the tool calls. -/
theorem over_add_iff (msg : Response) {dim : BudgetDimension} (h : dim ≠ .maxToolCalls) :
    (t.add b msg.usage).Over b dim ↔ (t.addResponse b msg).Over b dim := by
  cases dim
  · exact Iff.rfl
  · exact absurd rfl h
  · exact Iff.rfl

/-- The first ceiling that the totals are over, in the order tokens, cost, tool calls. -/
def FirstOver (t : BudgetTracker) (b : Budget) : BudgetDimension → Prop
  | .maxTokens => t.Over b .maxTokens
  | .maxCostUsd => ¬ t.Over b .maxTokens ∧ t.Over b .maxCostUsd
  | .maxToolCalls =>
      ¬ t.Over b .maxTokens ∧ ¬ t.Over b .maxCostUsd ∧ t.Over b .maxToolCalls

theorem FirstOver.over {dim : BudgetDimension} (h : t.FirstOver b dim) : t.Over b dim := by
  cases dim
  · exact h
  · exact h.2.2
  · exact h.2

/-- There is only one first ceiling. -/
theorem FirstOver.unique {dim dim' : BudgetDimension} (h : t.FirstOver b dim)
    (h' : t.FirstOver b dim') : dim = dim' := by
  cases dim <;> cases dim' <;> simp_all [FirstOver]

/-- A reply without tool calls is recorded by its usage. -/
theorem add_eq_addResponse {msg : Response} (h : msg.toolCalls = 0) :
    t.add b msg.usage = t.addResponse b msg := by
  have hcalls : t.toolCalls + (msg.toolCalls : Int) = (t.add b msg.usage).toolCalls := by
    rw [add_toolCalls, h]
    simp
  simp only [addResponse, hcalls]

theorem recordToolCalls_add (hb : t.budget = some b) {msg : Response} (h : msg.toolCalls ≠ 0) :
    (t.add b msg.usage).recordToolCalls msg.toolCalls =
      ((t.addResponse b msg).toolCallsExceeded b, t.addResponse b msg) := by
  rw [recordToolCalls_eq ((add_budget msg.usage).trans hb) h, add_toolCalls]
  rfl

/-- The checks of tokens and cost, which `record` makes. -/
theorem record_cases (hb : t.budget = some b) (msg : Response) :
    (∃ exc, t.record msg.usage = (some exc, t.add b msg.usage) ∧
      (t.addResponse b msg).FirstOver b exc.dimension ∧ exc.dimension ≠ .maxToolCalls) ∨
    (t.record msg.usage = (none, t.add b msg.usage) ∧
      ¬ (t.addResponse b msg).Over b .maxTokens ∧ ¬ (t.addResponse b msg).Over b .maxCostUsd) := by
  rw [record_eq hb]
  rcases tokensExceeded_checks (t := t.add b msg.usage) (b := b) with
    ⟨htokens, hnotTokens⟩ | ⟨exc, htokens, hdim, hover⟩
  · rw [over_add_iff msg (by decide)] at hnotTokens
    rcases costExceeded_checks (t := t.add b msg.usage) (b := b) with
      ⟨hcost, hnotCost⟩ | ⟨exc, hcost, hdim, hover⟩
    · rw [over_add_iff msg (by decide)] at hnotCost
      exact Or.inr ⟨by rw [htokens, hcost, Option.or_none], hnotTokens, hnotCost⟩
    · rw [over_add_iff msg (by decide)] at hover
      refine Or.inl ⟨exc, by rw [htokens, hcost, Option.none_or], ?_⟩
      rw [hdim]
      exact ⟨⟨hnotTokens, hover⟩, by decide⟩
  · rw [over_add_iff msg (by decide)] at hover
    refine Or.inl ⟨exc, by rw [htokens, Option.some_or], ?_⟩
    rw [hdim]
    exact ⟨hover, by decide⟩

/-- What the accounting of a reply does: the first exceeded ceiling is raised, tool calls being
checked when there are some; when nothing is raised everything is recorded. -/
theorem account_cases (hb : t.budget = some b) (msg : Response) :
    (∃ exc counted tracker, t.account msg.usage msg.toolCalls = (some exc, counted, tracker) ∧
      (t.addResponse b msg).FirstOver b exc.dimension ∧
        (exc.dimension = .maxToolCalls → msg.toolCalls ≠ 0)) ∨
    (∃ counted, t.account msg.usage msg.toolCalls = (none, counted, t.addResponse b msg) ∧
      ∀ dim, (t.addResponse b msg).FirstOver b dim → dim = .maxToolCalls ∧ msg.toolCalls = 0) := by
  unfold account
  rcases record_cases hb msg with ⟨exc, hrecord, hfirst, hdim⟩ | ⟨hrecord, hnotTokens, hnotCost⟩
  · rw [hrecord]
    exact Or.inl ⟨exc, _, _, rfl, hfirst, fun h => absurd h hdim⟩
  · rw [hrecord]
    dsimp only
    -- what is left to be over is the ceiling of the tool calls
    have hlast : ∀ dim, (t.addResponse b msg).FirstOver b dim → dim = .maxToolCalls := by
      intro dim hdim
      cases dim
      · exact absurd hdim hnotTokens
      · rfl
      · exact absurd hdim.over hnotCost
    by_cases hzero : msg.toolCalls = 0
    · rw [if_pos hzero, add_eq_addResponse hzero]
      exact Or.inr ⟨0, rfl, fun dim hdim => ⟨hlast dim hdim, hzero⟩⟩
    · rw [if_neg hzero, recordToolCalls_add hb hzero]
      rcases toolCallsExceeded_checks (t := t.addResponse b msg) (b := b) with
        ⟨hquiet, hnot⟩ | ⟨exc, hraised, hdim, hover⟩
      · refine Or.inr ⟨_, by rw [hquiet], fun dim hdim => absurd hdim.over ?_⟩
        rwa [hlast dim hdim]
      · refine Or.inl ⟨exc, _, _, by rw [hraised], ?_, fun _ => hzero⟩
        rw [hdim]
        exact ⟨hnotTokens, hnotCost, hover⟩

end BudgetTracker

/-! ## One call -/

/-- A structured call raises no exceeded budget. -/
theorem LangChainTransport.call_structured_ne (t : LangChainTransport) (r : StructuredRequest S)
    (exc : BudgetExceededError) : (t.call (.structured r)).1 ≠ some (.budget exc) := by
  rw [call]
  dsimp only
  split <;> simp

namespace Tracks

variable {b : Budget} {t : LangChainTransport} {before : List (TransportCall S)}
  {c : TransportCall S}

/-- The totals after one more reply. -/
theorem over_iff {tracker : BudgetTracker} {msg : Response}
    (hexact : tracker.arithmetic = .exact)
    (htotals : ∀ dim, tracker.total dim = b.cumulative dim before)
    (hmsg : c.response? = some msg) (dim : BudgetDimension) :
    (tracker.addResponse b msg).Over b dim ↔ b.Crossed dim (before ++ [c]) := by
  rw [BudgetTracker.Over, Budget.Crossed, BudgetTracker.total_addResponse hexact, htotals,
    b.cumulative_snoc_some hmsg]

theorem firstOver_iff {tracker : BudgetTracker} {msg : Response}
    (hexact : tracker.arithmetic = .exact)
    (htotals : ∀ dim, tracker.total dim = b.cumulative dim before)
    (hmsg : c.response? = some msg) (dim : BudgetDimension) :
    (tracker.addResponse b msg).FirstOver b dim ↔ b.FirstCrossed (before ++ [c]) dim := by
  have hover := over_iff hexact htotals hmsg
  cases dim <;> simp only [BudgetTracker.FirstOver, Budget.FirstCrossed, hover]

/-- A call without a reply does not trip the budget. -/
theorem not_trips (h : c.response? = none) (dim : BudgetDimension) :
    ¬ b.Trips before c dim := by
  rintro ⟨msg, hmsg, -⟩
  rw [h] at hmsg
  cases hmsg

/-- What a reply raises is what the accounting of it raises. -/
theorem call_reply {tracker : BudgetTracker} {msg : Response} {exc : Option BudgetExceededError}
    {counted : Nat} {tracker' : BudgetTracker} (htracker : t.budget = some tracker)
    (haccount : tracker.account msg.usage msg.toolCalls = (exc, counted, tracker')) :
    (t.call (TransportCall.invoke (S := S) (.ok msg))).1 = exc.map .budget ∧
      (t.call (TransportCall.invoke (S := S) (.ok msg))).2.budget = some tracker' := by
  cases exc <;> simp [LangChainTransport.call, LangChainTransport.invoke, htracker, haccount]

/-- **What a call raises** when the tracker holds the totals so far. -/
theorem call_raises_iff (ht : Tracks b t before) (dim : BudgetDimension) :
    (∃ exc, (t.call c).1 = some (.budget exc) ∧ exc.dimension = dim) ↔ b.Trips before c dim := by
  obtain ⟨tracker, htracker, hb, hexact, htotals⟩ := ht
  match c with
  -- Structured calls are not metered, and a failed call has no usage.
  | .structured r =>
      refine iff_of_false ?_ (not_trips rfl dim)
      rintro ⟨exc, hexc, -⟩
      exact t.call_structured_ne r exc hexc
  | .invoke (.error raised) =>
      refine iff_of_false ?_ (not_trips rfl dim)
      rintro ⟨exc, hexc, -⟩
      simp [LangChainTransport.call, LangChainTransport.invoke] at hexc
  | .invoke (.ok msg) =>
      have hfirst := firstOver_iff (c := .invoke (.ok msg)) (S := S) hexact htotals rfl
      rcases tracker.account_cases hb msg with ⟨exc, counted, tracker', haccount, hdim, hcalls⟩ |
        ⟨counted, haccount, hquiet⟩
      · rw [(call_reply htracker haccount).1]
        constructor
        · rintro ⟨exc', hexc', rfl⟩
          cases hexc'
          exact ⟨msg, rfl, (hfirst _).mp hdim, hcalls⟩
        · rintro ⟨msg', hmsg', htrips, -⟩
          exact ⟨exc, rfl, hdim.unique ((hfirst dim).mpr htrips)⟩
      · rw [(call_reply htracker haccount).1]
        refine iff_of_false ?_ ?_
        · rintro ⟨exc, hexc, -⟩
          cases hexc
        · rintro ⟨msg', hmsg', htrips, hne⟩
          cases hmsg'
          obtain ⟨hlast, hzero⟩ := hquiet dim ((hfirst dim).mpr htrips)
          exact hne hlast hzero

/-- As long as nothing is raised, the tracker holds the totals. -/
theorem call (ht : Tracks b t before) (hquiet : ∀ exc, (t.call c).1 ≠ some (.budget exc)) :
    Tracks b (t.call c).2 (before ++ [c]) := by
  obtain ⟨tracker, htracker, hb, hexact, htotals⟩ := ht
  match c with
  | .structured r =>
      refine ⟨tracker, (t.structured_budget r).trans htracker, hb, hexact, ?_⟩
      intro dim
      rw [htotals, b.cumulative_snoc_none rfl]
  | .invoke (.error exc) =>
      refine ⟨tracker, htracker, hb, hexact, ?_⟩
      intro dim
      rw [htotals, b.cumulative_snoc_none rfl]
  | .invoke (.ok msg) =>
      rcases tracker.account_cases hb msg with ⟨exc, counted, tracker', haccount, -⟩ |
        ⟨counted, haccount, -⟩
      · exact absurd (call_reply htracker haccount).1 (hquiet exc)
      · refine ⟨tracker.addResponse b msg, (call_reply htracker haccount).2, ?_, ?_, ?_⟩
        · exact (tracker.addResponse_budget msg).trans hb
        · exact (tracker.addResponse_arithmetic msg).trans hexact
        · intro dim
          rw [BudgetTracker.total_addResponse hexact, htotals, b.cumulative_snoc_some rfl]

end Tracks

/-! ## A sequence of calls -/

theorem after_snoc (t : LangChainTransport) (calls : List (TransportCall S))
    (c : TransportCall S) : t.after (calls ++ [c]) = ((t.after calls).call c).2 := by
  rw [LangChainTransport.after, List.foldl_append]
  rfl

theorem tracks_after (b : Budget) {calls : List (TransportCall S)}
    (hquiet : Quiet (budgetedTransport b).RaisesExceeded calls) :
    Tracks b ((budgetedTransport b).after calls) calls := by
  induction calls using List.reverseRecOn with
  | nil => exact tracks_budgetedTransport b
  | append_singleton calls c ih =>
      obtain ⟨hbefore, hc⟩ := quiet_snoc.mp hquiet
      rw [after_snoc]
      exact (ih hbefore).call fun exc hexc => hc exc.dimension ⟨exc, hexc, rfl⟩

/-- The first call that raises is the first one that trips. -/
theorem isFirst_raises_iff (b : Budget) {before : List (TransportCall S)} {c : TransportCall S}
    {dim : BudgetDimension} :
    IsFirst (budgetedTransport b).RaisesExceeded before c dim ↔ IsFirst b.Trips before c dim :=
  isFirst_congr fun _ hquiet _ dim => (tracks_after b hquiet).call_raises_iff dim

/-! ## Ceilings that are not negative -/

section

variable {b : Budget} {before : List (TransportCall S)} {c : TransportCall S}
  {dim : BudgetDimension}

theorem Budget.Trips.crosses (h : b.Trips before c dim) : b.Crosses before c dim := by
  obtain ⟨msg, hmsg, hfirst, -⟩ := h
  exact ⟨msg, hmsg, hfirst⟩

/-- Some ceiling is the first exceeded one. -/
theorem Budget.exists_firstCrossed {calls : List (TransportCall S)}
    (h : b.Crossed .maxToolCalls calls) : ∃ dim, b.FirstCrossed calls dim := by
  by_cases htokens : b.Crossed .maxTokens calls
  · exact ⟨.maxTokens, htokens⟩
  · by_cases hcost : b.Crossed .maxCostUsd calls
    · exact ⟨.maxCostUsd, htokens, hcost⟩
    · exact ⟨.maxToolCalls, htokens, hcost, h⟩

/-- A reply without tool calls does not exceed their ceiling. -/
theorem Budget.crossed_toolCalls_snoc
    (hno : ∀ msg, c.response? = some msg → msg.toolCalls = 0)
    (h : b.Crossed .maxToolCalls (before ++ [c])) : b.Crossed .maxToolCalls before := by
  obtain ⟨limit, hlimit, hlt⟩ := h
  refine ⟨limit, hlimit, ?_⟩
  cases hmsg : c.response? with
  | none => rwa [b.cumulative_snoc_none hmsg] at hlt
  | some msg =>
      rw [b.cumulative_snoc_some hmsg] at hlt
      simpa [Budget.used, hno msg hmsg] using hlt

/-- Tool calls over a ceiling that is not negative have tripped the budget. -/
theorem Budget.not_quiet_of_crossed (hpos : ∀ limit, b.maxToolCalls = some limit → 0 ≤ limit)
    (h : b.Crossed .maxToolCalls before) : ¬ Quiet b.Trips before := by
  induction before using List.reverseRecOn with
  | nil =>
      obtain ⟨limit, hlimit, hlt⟩ := h
      obtain ⟨n, hn, rfl⟩ := Option.map_eq_some_iff.mp hlimit
      have hn0 : (0 : ℚ) ≤ n := Int.cast_nonneg (hpos n hn)
      rw [b.cumulative_nil] at hlt
      exact absurd hlt (not_lt.mpr hn0)
  | append_singleton before c ih =>
      intro hquiet
      obtain ⟨hbefore, hc⟩ := quiet_snoc.mp hquiet
      by_cases hno : ∀ msg, c.response? = some msg → msg.toolCalls = 0
      · exact ih (crossed_toolCalls_snoc hno h) hbefore
      · push Not at hno
        obtain ⟨msg, hmsg, hne⟩ := hno
        obtain ⟨dim, hdim⟩ := exists_firstCrossed h
        exact hc dim ⟨msg, hmsg, hdim, fun _ => hne⟩

/-- Then the first call that trips is the first one after which a ceiling is exceeded. -/
theorem isFirst_trips_iff (hpos : ∀ limit, b.maxToolCalls = some limit → 0 ≤ limit) :
    IsFirst b.Trips before c dim ↔ IsFirst b.Crosses before c dim := by
  refine isFirst_congr fun before hquiet c dim => ?_
  constructor
  · exact Budget.Trips.crosses
  · rintro ⟨msg, hmsg, hfirst⟩
    refine ⟨msg, hmsg, hfirst, ?_⟩
    rintro rfl hzero
    -- without tool calls of its own, the ceiling was exceeded before
    have hno : ∀ msg', c.response? = some msg' → msg'.toolCalls = 0 := by
      intro msg' hmsg'
      rw [hmsg] at hmsg'
      cases hmsg'
      exact hzero
    exact Budget.not_quiet_of_crossed hpos (Budget.crossed_toolCalls_snoc hno hfirst.2.2) hquiet

end

/-! ## Structured calls in between -/

theorem call_invoke_congr {t t' : LangChainTransport} (h : t.budget = t'.budget)
    (reply : Except Raised Response) :
    (t.call (TransportCall.invoke (S := S) reply)).1 = (t'.call (.invoke (S := S) reply)).1 ∧
      (t.call (TransportCall.invoke (S := S) reply)).2.budget =
        (t'.call (.invoke (S := S) reply)).2.budget := by
  unfold LangChainTransport.call LangChainTransport.invoke
  cases reply with
  | error exc => exact ⟨rfl, h⟩
  | ok msg =>
      dsimp only
      rw [← h]
      cases hb : t.budget with
      | none => exact ⟨rfl, by dsimp only; rw [← h]⟩
      | some tracker =>
          rcases haccount : tracker.account msg.usage msg.toolCalls with
            ⟨_ | exc, counted, tracker'⟩
          · simp [haccount]
          · simp [haccount]

/-- The tracker after some calls is that of the `invoke`s among them. -/
theorem budget_after_filter (t : LangChainTransport) (calls : List (TransportCall S)) :
    (t.after calls).budget = (t.after (calls.filter TransportCall.isInvoke)).budget := by
  induction calls using List.reverseRecOn with
  | nil => rfl
  | append_singleton calls c ih =>
      rw [after_snoc, List.filter_append]
      cases c with
      | invoke reply =>
          have hkeep : [TransportCall.invoke (S := S) reply].filter TransportCall.isInvoke =
              [.invoke reply] := rfl
          rw [hkeep, after_snoc]
          exact (call_invoke_congr ih reply).2
      | structured r =>
          have hdrop : [TransportCall.structured r].filter TransportCall.isInvoke = [] := rfl
          rw [hdrop, List.append_nil, ← ih]
          exact (t.after calls).structured_budget r

/-- **The budget trips at the first crossing.** The first call that raises is the first one
after whose reply tokens, cost or, where the reply has some, tool calls are over their ceiling,
and it names the first of these. Unless the ceiling for tool calls is negative, that is the
first reply after which any ceiling is exceeded. Structured calls change nothing. -/
theorem budget_trips_at_first_crossing (b : Budget) :
    (∀ (before : List (TransportCall S)) (c : TransportCall S) (dim : BudgetDimension),
      IsFirst (budgetedTransport b).RaisesExceeded before c dim ↔ IsFirst b.Trips before c dim) ∧
    ((∀ limit, b.maxToolCalls = some limit → 0 ≤ limit) →
      ∀ (before : List (TransportCall S)) (c : TransportCall S) (dim : BudgetDimension),
        IsFirst (budgetedTransport b).RaisesExceeded before c dim ↔
          IsFirst b.Crosses before c dim) ∧
    ∀ before : List (TransportCall S),
      (∀ reply, (budgetedTransport b).raises before (.invoke reply) =
        (budgetedTransport b).raises (before.filter TransportCall.isInvoke) (.invoke reply)) ∧
      ∀ r exc, (budgetedTransport b).raises before (.structured r) ≠ some (.budget exc) := by
  refine ⟨?_, ?_, ?_⟩
  · intro before c dim
    exact isFirst_raises_iff b
  · intro hpos before c dim
    exact (isFirst_raises_iff b).trans (isFirst_trips_iff hpos)
  · intro before
    constructor
    · intro reply
      exact (call_invoke_congr (budget_after_filter _ before) reply).1
    · intro r exc
      exact LangChainTransport.call_structured_ne _ r exc

/-- **A negative ceiling is exceeded before it is noticed.** No reply exceeds it by itself, and
the first one without tool calls raises nothing. -/
theorem negative_ceiling_unnoticed :
    IsFirst (Budget.Crosses (S := Unit) { maxToolCalls := some (-1) }) [] (.invoke (.ok {}))
      .maxToolCalls ∧
    ¬ IsFirst (LangChainTransport.RaisesExceeded (S := Unit)
        (budgetedTransport { maxToolCalls := some (-1) })) [] (.invoke (.ok {})) .maxToolCalls ∧
    IsFirst (LangChainTransport.RaisesExceeded (S := Unit)
        (budgetedTransport { maxToolCalls := some (-1) })) [.invoke (.ok {})]
      (.invoke (.ok { toolCalls := 1 })) .maxToolCalls := by
  refine ⟨?_, ?_, ?_⟩
  · have hunset : ∀ dim, dim ≠ .maxToolCalls →
        ¬ Budget.Crossed (S := Unit) { maxToolCalls := some (-1) } dim [.invoke (.ok {})] := by
      rintro dim hdim ⟨limit, hlimit, -⟩
      cases dim
      · cases hlimit
      · exact hdim rfl
      · cases hlimit
    refine ⟨⟨{}, rfl, hunset _ (by decide), hunset _ (by decide), -1, ?_, ?_⟩, Quiet.nil⟩
    · simp [Budget.limit]
    · show (-1 : ℚ) < ((0 : Nat) : ℚ) + 0
      norm_num
  · rintro ⟨⟨exc, hexc, -⟩, -⟩
    cases hexc
  · refine ⟨⟨_, rfl, rfl⟩, (quiet_snoc (l := [])).mpr ⟨Quiet.nil, ?_⟩⟩
    rintro dim ⟨exc, hexc, -⟩
    cases hexc

end AgentRoom
