import AgentRoom.Server.Budget
import Mathlib.Tactic.Linarith

set_option autoImplicit false

/-! # Whose usage a budget counts

A tracker holds exactly what was recorded on its graph. Where a graph was compiled for a task
that is the task's own usage; on the graph of the startup it is the usage of every task the
compatibility endpoints have run.
-/

namespace AgentRoom

open Transition

/-! ## What the accounting of a call does -/

namespace BudgetTracker

variable {b : Budget} {t t' : BudgetTracker} {usage : Option Usage} {toolCalls counted : Nat}
  {error : Option BudgetExceededError} {e : BudgetExceededError}

theorem exists_limit_of_tokensExceeded (h : t.tokensExceeded b = some e) :
    ∃ limit, b.limit e.dimension = some limit ∧ limit < t.total e.dimension := by
  unfold tokensExceeded at h
  split at h
  · rename_i limit hlimit
    split at h
    · rename_i hlt
      cases h
      exact ⟨limit, by simp [Budget.limit, hlimit], Int.cast_lt.mpr hlt⟩
    · cases h
  · cases h

theorem exists_limit_of_costExceeded (h : t.costExceeded b = some e) :
    ∃ limit, b.limit e.dimension = some limit ∧ limit < t.total e.dimension := by
  unfold costExceeded at h
  split at h
  · rename_i limit hlimit
    split at h
    · rename_i hlt
      cases h
      exact ⟨limit, hlimit, hlt⟩
    · cases h
  · cases h

theorem exists_limit_of_toolCallsExceeded (h : t.toolCallsExceeded b = some e) :
    ∃ limit, b.limit e.dimension = some limit ∧ limit < t.total e.dimension := by
  unfold toolCallsExceeded at h
  split at h
  · rename_i limit hlimit
    split at h
    · rename_i hlt
      cases h
      exact ⟨limit, by simp [Budget.limit, hlimit], Int.cast_lt.mpr hlt⟩
    · cases h
  · cases h

/-- Without a budget nothing is raised. -/
theorem account_of_none (hb : t.budget = none)
    (h : t.account usage toolCalls = (error, counted, t')) : error = none ∧ t'.budget = none := by
  unfold account record at h
  rw [hb] at h
  dsimp only at h
  split at h
  · cases h
    exact ⟨rfl, hb⟩
  · unfold recordToolCalls at h
    rw [hb] at h
    cases h
    exact ⟨rfl, hb⟩

/-- A tracker shows what some calls add up to. -/
structure Shows (t : BudgetTracker) (b : Budget) (log : List UsageRecord) : Prop where
  budget : t.budget = some b
  arithmetic : t.arithmetic = .double
  total : ∀ dim, t.total dim = b.counted dim log

theorem shows_fresh {budget : Option Budget} (hb : budget = some b) :
    ({ budget := budget } : BudgetTracker).Shows b [] := by
  refine ⟨hb, rfl, ?_⟩
  intro dim
  cases dim <;> simp [BudgetTracker.total, Budget.counted]

/-- What a reply's usage adds. -/
theorem Shows.add {log : List UsageRecord} (h : t.Shows b log) (g : Nat) (taskId : String) :
    (t.add b usage).Shows b (log ++ [⟨g, taskId, usage, 0⟩]) := by
  have htokens := h.total .maxTokens
  have hcalls := h.total .maxToolCalls
  have hcost := h.total .maxCostUsd
  simp only [BudgetTracker.total, Budget.counted] at htokens hcalls hcost
  unfold BudgetTracker.add
  cases usage with
  | none =>
      refine ⟨h.budget, h.arithmetic, ?_⟩
      intro dim
      cases dim <;> simp [BudgetTracker.total, Budget.counted, Budget.amount, Budget.spent, htokens,
        hcalls, hcost]
  | some u =>
      refine ⟨h.budget, h.arithmetic, ?_⟩
      intro dim
      cases dim <;> simp [BudgetTracker.total, Budget.counted, Budget.amount, Budget.spent, htokens,
        hcalls, hcost, h.arithmetic]

/-- Only the tool calls depend on the number of tool calls. -/
theorem counted_snoc_congr {dim : BudgetDimension} (h : dim ≠ .maxToolCalls)
    (log : List UsageRecord) (g : Nat) (taskId : String) (m n : Nat) :
    b.counted dim (log ++ [⟨g, taskId, usage, m⟩]) =
      b.counted dim (log ++ [⟨g, taskId, usage, n⟩]) := by
  cases dim
  · simp [Budget.counted, Budget.spent, Budget.amount]
  · exact absurd rfl h
  · cases usage <;> simp [Budget.counted]

/-- What a reply's tool calls add. -/
theorem Shows.addToolCalls {log : List UsageRecord} {g : Nat} {taskId : String}
    (h : t.Shows b (log ++ [⟨g, taskId, usage, 0⟩])) (n : Nat) :
    Shows { t with toolCalls := t.toolCalls + n } b (log ++ [⟨g, taskId, usage, n⟩]) := by
  refine ⟨h.budget, h.arithmetic, ?_⟩
  intro dim
  have hdim := h.total dim
  cases dim
  · exact hdim.trans (counted_snoc_congr (by decide) log g taskId 0 n)
  · simp only [BudgetTracker.total, Budget.counted, Budget.spent_append] at hdim ⊢
    simp only [Budget.spent, Budget.amount, List.map_cons, List.map_nil, List.sum_singleton]
      at hdim ⊢
    push_cast at hdim ⊢
    linarith
  · exact hdim.trans (counted_snoc_congr (by decide) log g taskId 0 n)

/-- The accounting of a call records it, and an error names a ceiling that a total exceeds. -/
theorem Shows.account {log : List UsageRecord} (hs : t.Shows b log) (g : Nat) (taskId : String)
    (h : t.account usage toolCalls = (error, counted, t')) :
    t'.Shows b (log ++ [⟨g, taskId, usage, counted⟩]) ∧
      ∀ e, error = some e →
        ∃ limit, b.limit e.dimension = some limit ∧ limit < t'.total e.dimension := by
  have hadd : (t.add b usage).Shows b (log ++ [⟨g, taskId, usage, 0⟩]) := hs.add g taskId
  unfold BudgetTracker.account at h
  rw [record_eq hs.budget] at h
  cases hraised : ((t.add b usage).tokensExceeded b).or ((t.add b usage).costExceeded b) with
  -- Tokens and cost are checked before the tool calls are counted.
  | some e =>
      rw [hraised] at h
      cases h
      refine ⟨hadd, ?_⟩
      intro e' he'
      cases he'
      rcases Option.or_eq_some_iff.mp hraised with htokens | ⟨-, hcost⟩
      · exact exists_limit_of_tokensExceeded htokens
      · exact exists_limit_of_costExceeded hcost
  | none =>
      rw [hraised] at h
      dsimp only at h
      split at h
      -- A reply without tool calls leaves that count alone.
      · cases h
        exact ⟨hadd, fun e he => by cases he⟩
      · rename_i hcount
        rw [recordToolCalls_eq hadd.budget hcount] at h
        simp only [Prod.mk.injEq] at h
        obtain ⟨herror, rfl, rfl⟩ := h
        exact ⟨hadd.addToolCalls toolCalls, fun e he =>
          exists_limit_of_toolCallsExceeded (herror.trans he)⟩

end BudgetTracker

/-! ## The invariant of a server -/

namespace BudgetedServer

variable {budget : Option Budget} {b : Budget} {s s' : BudgetedServer} {taskId : String} {g : Nat}
  {dim : BudgetDimension} {a : BudgetAction} {l : List BudgetAction}

/-- A task may use a graph: it was compiled for it, or it is shared. -/
def MayUse (s : BudgetedServer) (taskId : String) (g : Nat) : Prop :=
  ∃ c, s.graphs[g]? = some c ∧ (c.task = some taskId ∨ g = 0)

/-- Every tracker holds what was recorded on its graph, and only tasks that may use a graph do. -/
structure Accounted (budget : Option Budget) (s : BudgetedServer) : Prop where
  configured : ∀ (g : Nat) (c : CompiledGraph), s.graphs[g]? = some c → c.tracker.budget = budget
  totals : ∀ (g : Nat) (c : CompiledGraph), s.graphs[g]? = some c → ∀ b, budget = some b →
    c.tracker.Shows b (s.on g)
  executing : ∀ taskId g, (taskId, g) ∈ s.executing → s.MayUse taskId g
  recorded : ∀ r ∈ s.log, s.MayUse r.taskId r.graph
  shared : s.graphs ≠ []

/-- More graphs and other trackers: a task may use what it could. -/
theorem MayUse.mono (h : s.MayUse taskId g)
    (hgraphs : ∀ (g : Nat) (c : CompiledGraph), s.graphs[g]? = some c →
      ∃ c', s'.graphs[g]? = some c' ∧ c'.task = c.task) : s'.MayUse taskId g := by
  obtain ⟨c, hc, htask⟩ := h
  obtain ⟨c', hc', heq⟩ := hgraphs g c hc
  exact ⟨c', hc', heq ▸ htask⟩

/-- A further graph starts with nothing recorded on it. -/
theorem Accounted.compileFor (h : s.Accounted budget) (taskId : String) :
    (s.compileFor budget taskId).Accounted budget := by
  -- The new graph is the last one: what is found at an old place was there before.
  have hold : ∀ (g : Nat) (c : CompiledGraph), s.graphs[g]? = some c →
      (s.compileFor budget taskId).graphs[g]? = some c := by
    intro g c hc
    have hlt := (List.getElem?_eq_some_iff.mp hc).1
    rw [BudgetedServer.compileFor, List.getElem?_append_left hlt, hc]
  have hnew : ∀ (g : Nat) (c : CompiledGraph),
      (s.compileFor budget taskId).graphs[g]? = some c → s.graphs[g]? = some c ∨
        g = s.graphs.length ∧ c = { task := some taskId, tracker := { budget := budget } } := by
    intro g c hc
    simp only [BudgetedServer.compileFor] at hc
    rcases Nat.lt_trichotomy g s.graphs.length with hlt | rfl | hgt
    · rw [List.getElem?_append_left hlt] at hc
      exact .inl hc
    · simp only [List.getElem?_concat_length, Option.some.injEq] at hc
      exact .inr ⟨rfl, hc.symm⟩
    · rw [List.getElem?_eq_none (by simp; omega)] at hc
      cases hc
  have hmono : ∀ {id g}, s.MayUse id g → (s.compileFor budget taskId).MayUse id g :=
    fun hmay => hmay.mono (fun g c hc => ⟨c, hold g c hc, rfl⟩)
  constructor
  · intro g c hc
    rcases hnew g c hc with hc | ⟨-, rfl⟩
    · exact h.configured g c hc
    · rfl
  · intro g c hc b hb
    rcases hnew g c hc with hc | ⟨rfl, rfl⟩
    · exact h.totals g c hc b hb
    -- No record is on a graph that did not exist when it was written.
    · have hnone : s.on s.graphs.length = [] := by
        refine List.filter_eq_nil_iff.mpr (fun r hr hgraph => ?_)
        obtain ⟨c', hc', -⟩ := h.recorded r hr
        have hlt := (List.getElem?_eq_some_iff.mp hc').1
        have heq := of_decide_eq_true hgraph
        omega
      show BudgetTracker.Shows _ b (s.on s.graphs.length)
      rw [hnone]
      exact BudgetTracker.shows_fresh hb
  · intro id g hmem
    rcases List.mem_append.mp hmem with hmem | hmem
    · exact hmono (h.executing id g hmem)
    · cases List.mem_singleton.mp hmem
      refine ⟨{ task := some taskId, tracker := { budget := budget } }, ?_, .inl rfl⟩
      simp [BudgetedServer.compileFor]
  · intro r hr
    exact hmono (h.recorded r hr)
  · simp [BudgetedServer.compileFor]

/-- Every task may use the shared graph. -/
theorem Accounted.shareFor (h : s.Accounted budget) (taskId : String) :
    (s.shareFor taskId).Accounted budget := by
  refine ⟨h.configured, h.totals, ?_, h.recorded, h.shared⟩
  intro id g hmem
  rcases List.mem_append.mp hmem with hmem | hmem
  · exact h.executing id g hmem
  · cases List.mem_singleton.mp hmem
    obtain ⟨c, cs, hgraphs⟩ := List.exists_cons_of_ne_nil h.shared
    exact ⟨c, by simp [BudgetedServer.shareFor, hgraphs], .inr rfl⟩

/-- A call is added to its graph's tracker and to no other. -/
theorem Accounted.invoke {c : CompiledGraph} {usage : Option Usage} {toolCalls counted : Nat}
    {error : Option BudgetExceededError} {tracker : BudgetTracker} {executing : List (String × Nat)}
    (h : s.Accounted budget) (hmem : (taskId, g) ∈ s.executing) (hc : s.graphs[g]? = some c)
    (haccount : c.tracker.account usage toolCalls = (error, counted, tracker))
    (hsub : ∀ p ∈ executing, p ∈ s.executing) :
    Accounted budget { graphs := s.graphs.set g { c with tracker := tracker }
                       executing := executing
                       log := s.log ++ [⟨g, taskId, usage, counted⟩] } := by
  have hlt := (List.getElem?_eq_some_iff.mp hc).1
  -- The call changes the tracker of one graph and the task of none.
  have hmono : ∀ {id g'}, s.MayUse id g' →
      MayUse { graphs := s.graphs.set g { c with tracker := tracker }
               executing := executing
               log := s.log ++ [⟨g, taskId, usage, counted⟩] } id g' := by
    intro id g' hmay
    refine hmay.mono (fun i c' hc' => ?_)
    by_cases hi : g = i
    · subst hi
      rw [hc] at hc'
      cases hc'
      exact ⟨{ c with tracker := tracker }, by simp [hlt], rfl⟩
    · exact ⟨c', by rw [List.getElem?_set_ne hi, hc'], rfl⟩
  have hnew : ∀ (i : Nat) (c' : CompiledGraph),
      (s.graphs.set g { c with tracker := tracker })[i]? = some c' →
        (i = g ∧ c' = { c with tracker := tracker }) ∨ (g ≠ i ∧ s.graphs[i]? = some c') := by
    intro i c' hc'
    by_cases hi : g = i
    · subst hi
      rw [List.getElem?_set_self hlt] at hc'
      exact .inl ⟨rfl, (Option.some.inj hc').symm⟩
    · rw [List.getElem?_set_ne hi] at hc'
      exact .inr ⟨hi, hc'⟩
  constructor
  · intro i c' hc'
    rcases hnew i c' hc' with ⟨rfl, rfl⟩ | ⟨-, hc'⟩
    · have hconf := h.configured i c hc
      cases hb : budget with
      | none => exact (BudgetTracker.account_of_none (hconf.trans hb) haccount).2
      | some b => exact ((h.totals i c hc b hb).account i taskId haccount).1.budget
    · exact h.configured i c' hc'
  -- The new record is on graph `g`, so the totals of the others are as before.
  · intro i c' hc' b hb
    rcases hnew i c' hc' with ⟨rfl, rfl⟩ | ⟨hi, hc'⟩
    · have hlog := ((h.totals i c hc b hb).account i taskId haccount).1
      simpa [on] using hlog
    · have hlog := h.totals i c' hc' b hb
      simpa [on, hi] using hlog
  · intro id g' hp
    exact hmono (h.executing id g' (hsub _ hp))
  · intro r hr
    rcases List.mem_append.mp hr with hr | hr
    · exact hmono (h.recorded r hr)
    · cases List.mem_singleton.mp hr
      exact hmono (h.executing taskId g hmem)
  · intro hnil
    exact h.shared (by simpa using hnil)

/-- **The step lemma** of the accounting. -/
theorem Accounted.step (h : s.Accounted budget) (hstep : BudgetStep budget s a s') :
    s'.Accounted budget := by
  cases hstep with
  | postTask => exact h.compileFor _
  | resumeTask => exact h.compileFor _
  | sessionTask => exact h.shareFor _
  | resumeSessionTask => exact h.shareFor _
  | invoke hmem hc haccount =>
      refine h.invoke hmem hc haccount (fun p hp => ?_)
      split at hp
      · exact List.mem_of_mem_erase hp
      · exact hp
  | finish =>
      exact ⟨h.configured, h.totals,
        fun id g hmem => h.executing id g (List.mem_of_mem_erase hmem), h.recorded, h.shared⟩

end BudgetedServer

end AgentRoom
