import AgentRoom.Properties.Budgets

set_option autoImplicit false

/-! # The recursion limit

The rank of a fresh task bounds its supersteps; in goal mode some run spends all of it. The
two together say for which requests `GRAPH_RECURSION_LIMIT` is enough.
-/

namespace AgentRoom

open Transition

/-! ## The longest run of goal mode -/

namespace Control

/-- Goal mode at the start of an iteration: `v` verifications have failed. -/
structure AtIteration (v N : Nat) (c : Control) : Prop where
  next : c.next = some .developer
  awake : c.interrupted = false
  hasOracle : c.hasOracle = true
  devRound : c.devRound = 0
  verifyRound : c.verifyRound = v
  maxIterations : c.maxIterations = N

/-- Goal mode with a verifier scheduled. -/
structure AtCheck (v N : Nat) (c : Control) : Prop where
  next : c.next = some .verify
  awake : c.interrupted = false
  hasOracle : c.hasOracle = true
  transcript : c.transcript = true
  verifyRound : c.verifyRound = v
  maxIterations : c.maxIterations = N

variable {v N : Nat} {c : Control}

/-- `k` tool rounds take `2 * k` supersteps. -/
theorem playsFor_toolRounds {k : Nat} (hk : k ≤ 8) (h : c.AtIteration v N) :
    ∃ c', c.PlaysFor .goal (2 * k) c' ∧ c'.next = some .developer ∧ c'.interrupted = false ∧
      c'.hasOracle = true ∧ c'.devRound = k ∧ c'.verifyRound = v ∧ c'.maxIterations = N := by
  induction k with
  | zero =>
      exact ⟨c, ⟨[], [], rfl, rfl⟩, h.next, h.awake, h.hasOracle, h.devRound, h.verifyRound,
        h.maxIterations⟩
  | succ k ih =>
      obtain ⟨d, hplay, hn, hi, ho, hd, hv, hN⟩ := ih (by omega)
      -- one round: a reply that calls a tool, and the tool node
      have hask := PlaysFor.one (p := .goal) (x := { calls := true }) hn rfl hi rfl
        (fun _ _ => ⟨rfl, by omega⟩)
      have hdev : d.step .goal { calls := true }
          = (d.toLedger.developer .goal).goto (some (.tools .developer)) := step_developer hn
      have hanswer := PlaysFor.one (p := .goal) (x := {})
        (c := d.step .goal { calls := true }) (n := .tools .developer) (by rw [hdev]; rfl) rfl
        (by rw [hdev]; rfl) rfl (by intro hdev'; rw [hdev] at hdev'; cases hdev')
      refine ⟨_, (hplay.trans hask).trans hanswer, ?_⟩
      rw [step_tools (n := .developer) (by rw [hdev]; rfl), hdev]
      exact ⟨rfl, rfl, ho, congrArg (· + 1) hd, hv, hN⟩

/-- A whole developer turn takes 17 supersteps. -/
theorem playsFor_turn (h : c.AtIteration v N) :
    ∃ c', c.PlaysFor .goal 17 c' ∧ c'.AtCheck v N := by
  obtain ⟨d, hplay, hn, hi, ho, -, hv, hN⟩ := playsFor_toolRounds (k := 8) (Nat.le_refl _) h
  -- the budget is used up, so the next reply is the final one
  have hreply := PlaysFor.one (p := .goal) (x := {}) hn rfl hi rfl (by intro _ hc; cases hc)
  have hdev : d.step .goal {} = (d.toLedger.developer .goal).goto (some .verify) :=
    step_developer hn
  refine ⟨_, hplay.trans hreply, ?_⟩
  rw [hdev]
  exact ⟨rfl, rfl, ho, rfl, hv, hN⟩

/-- A failed verification leads to the next iteration, at each third failure through the
supervisor and a new plan. -/
theorem playsFor_failed_check (h : c.AtCheck v N) (hv : v + 1 < N) :
    ∃ c', c.PlaysFor .goal (1 + if (v + 1) % 3 = 0 then 2 else 0) c' ∧
      c'.AtIteration (v + 1) N := by
  obtain ⟨hn, hi, ho, ht, rfl, rfl⟩ := h
  have hcheck := PlaysFor.one (p := .goal) (x := {}) hn rfl hi rfl
    (by intro hdev; rw [hn] at hdev; cases hdev)
  have hfail : c.step .goal {} = (c.toLedger.verify {}).goto
      (if (c.verifyRound + 1) % 3 = 0 then some .supervisor else some .developer) := by
    rw [step_verify hn, Ledger.afterVerify_of_hasOracle ho, if_neg (by simp),
      if_neg (Nat.not_le.mpr hv)]
    rfl
  have hledger : c.toLedger.verify {} = { c.toLedger with
      verification := some false, verifyRound := c.verifyRound + 1, devRound := 0 } := by
    rw [Ledger.verify_of_hasOracle ho]
    simp [ht]
  rw [hfail, hledger] at hcheck
  by_cases hthird : (c.verifyRound + 1) % 3 = 0
  · rw [if_pos hthird] at hcheck ⊢
    -- the supervisor asks for a new plan
    have hstuck := PlaysFor.one (p := .goal) (x := { action := .replan }) (n := .supervisor)
      (c := Ledger.goto { c.toLedger with
        verification := some false, verifyRound := c.verifyRound + 1, devRound := 0 }
        (some .supervisor)) rfl rfl rfl rfl (by intro hdev; cases hdev)
    have hplan := PlaysFor.one (p := .goal) (x := {}) (n := .planner)
      (c := Control.step .goal { action := .replan } (Ledger.goto { c.toLedger with
        verification := some false, verifyRound := c.verifyRound + 1, devRound := 0 }
        (some .supervisor))) rfl rfl rfl rfl (by intro hdev; cases hdev)
    refine ⟨_, (hcheck.trans hstuck).trans hplan, rfl, rfl, ho, ?_, rfl, rfl⟩
    simp [Control.step, Ledger.goto, Ledger.supervisor, Ledger.afterSupervisor, Ledger.planner]
  · rw [if_neg hthird] at hcheck ⊢
    exact ⟨_, hcheck, rfl, rfl, ho, rfl, rfl, rfl⟩

/-- The first `v` iterations fail. -/
theorem playsFor_failed_iterations (h : c.AtIteration 0 N) (hv : v < N) :
    ∃ c', c.PlaysFor .goal (18 * v + 2 * (v / 3)) c' ∧ c'.AtIteration v N := by
  induction v with
  | zero => exact ⟨c, ⟨[], [], rfl, rfl⟩, h⟩
  | succ v ih =>
      obtain ⟨d, hplay, hd⟩ := ih (by omega)
      obtain ⟨d', hturn, hd'⟩ := playsFor_turn hd
      obtain ⟨d'', hcheck, hd''⟩ := playsFor_failed_check hd' hv
      refine ⟨d'', ?_, hd''⟩
      have hlen : 18 * v + 2 * (v / 3) + 17 + (1 + if (v + 1) % 3 = 0 then 2 else 0)
          = 18 * (v + 1) + 2 * ((v + 1) / 3) := by
        split <;> omega
      rw [← hlen]
      exact (hplay.trans hturn).trans hcheck

/-- **The longest run**: every iteration but the last fails, every turn uses up its tools,
every rescue makes a new plan. -/
theorem playsFor_longest (hn : c.next = some .planner) (hi : c.interrupted = false)
    (ho : c.hasOracle = true) (ht : c.transcript = false) (hd : c.devRound = 0)
    (hv : c.verifyRound = 0) (hN : 1 ≤ c.maxIterations) :
    ∃ c', c.PlaysFor .goal
        (2 + 18 * c.maxIterations + 2 * ((c.maxIterations - 1) / 3)) c' ∧ c'.next = none := by
  have hplan := PlaysFor.one (p := .goal) (x := {}) hn rfl hi rfl
    (by intro hdev; rw [hn] at hdev; cases hdev)
  have hstart : (c.step .goal {}).AtIteration 0 c.maxIterations := by
    rw [step_planner hn]
    exact ⟨rfl, rfl, ho, by simp [Ledger.planner, ht, hd], hv, rfl⟩
  obtain ⟨d, hfail, hd⟩ := playsFor_failed_iterations (v := c.maxIterations - 1) hstart (by omega)
  -- the last iteration passes
  obtain ⟨d', hturn, hcheck⟩ := playsFor_turn hd
  have hpass := PlaysFor.one (p := .goal) (x := { passes := true }) hcheck.next rfl
    hcheck.awake rfl (by intro hdev; rw [hcheck.next] at hdev; cases hdev)
  have hpassed : d'.step .goal { passes := true } =
      (d'.toLedger.verify { passes := true }).goto (some .delivery) := by
    rw [step_verify hcheck.next, Ledger.afterVerify_of_hasOracle hcheck.hasOracle]
    rfl
  have hdeliver := PlaysFor.one (p := .goal) (x := {}) (n := .delivery)
    (c := d'.step .goal { passes := true }) (by rw [hpassed]; rfl) rfl (by rw [hpassed]; rfl) rfl
    (by intro hdev; rw [hpassed] at hdev; cases hdev)
  have hend : ((d'.step .goal { passes := true }).step .goal {}).next = none := by
    rw [step_delivery (by rw [hpassed]; rfl)]
    rfl
  refine ⟨_, ?_, hend⟩
  have hlen : 1 + (18 * (c.maxIterations - 1) + 2 * ((c.maxIterations - 1) / 3)) + 17 + 1 + 1
      = 2 + 18 * c.maxIterations + 2 * ((c.maxIterations - 1) / 3) := by
    omega
  rw [← hlen]
  exact (((hplan.trans hfail).trans hturn).trans hpass).trans hdeliver

end Control

/-- The longest run of goal mode is a run of the preset. -/
theorem exists_longest_run (tools : List Tool) (taskId : String) {req : TaskRequest}
    (hcmd : Py.truthy req.verifyCommand = true) :
    ∃ l c, Run (HonestStep (Preset.goal.compiled tools false) {})
        ((Preset.goal.compiled tools false).start taskId req) l c ∧ c.next = none ∧
      l.length = 2 + 18 * req.maxIterations + 2 * ((req.maxIterations - 1) / 3) := by
  obtain ⟨k, ⟨xs, ns, hplay, hlen⟩, hend⟩ := Control.playsFor_longest
    (c := ((Preset.goal.compiled tools false).start taskId req).control) rfl rfl hcmd rfl rfl rfl
    req.one_le_maxIterations
  obtain ⟨l, c, hrun, rfl, hnodes, -⟩ := Preset.exists_honest_run (by decide) hplay
  refine ⟨l, c, hrun, hend, ?_⟩
  rw [← List.length_map (f := StepLog.node), hnodes, hlen]
  rfl

/-- **When the recursion limit covers a request.** Every run of the task ends within
`GRAPH_RECURSION_LIMIT` supersteps, except in goal mode with a verify command and the largest
`max_iterations`. -/
theorem recursion_limit_covers_iff (p : Preset) (taskId : String) (req : TaskRequest) :
    (∀ (b : Bindings) (l : List StepLog) (c : Config),
        Run (HonestStep p.graph b) (p.graph.start taskId req) l c → c.next = none →
          l.length ≤ graphRecursionLimit) ↔
      ¬ (p = .goal ∧ Py.truthy req.verifyCommand = true ∧ req.maxIterations = 50) := by
  rw [Preset.graph_eq]
  constructor
  · -- the longest run is one too long
    rintro hall ⟨rfl, hcmd, hN⟩
    obtain ⟨l, c, hrun, hend, hlen⟩ := exists_longest_run Preset.builtinDevTools taskId hcmd
    have hle := hall {} l c hrun hend
    rw [hlen, hN] at hle
    exact absurd hle (by decide)
  · -- the rank of the start stays below the limit
    intro hcond b l c hrun _
    have hle := (run_length_le_rank (start_budgeted p _ taskId req) hrun).2
    have hstart := rank_start_le p Preset.builtinDevTools taskId req
    have hlimit : graphRecursionLimit = 928 := rfl
    have hi := req.maxIterations_le
    split_ifs at hstart with hgoal
    · have hN : req.maxIterations ≠ 50 := fun hN => hcond ⟨hgoal.1, hgoal.2, hN⟩
      omega
    · omega

/-- The task a goal-mode caller may send with the largest budget. -/
def longestRequest : TaskRequest :=
  { title := "t", description := "d", verifyCommand := some "make", maxIterations := 50 }

/-- It can take 934 supersteps, six more than the limit. -/
theorem recursion_limit_exceeded :
    ∃ (l : List StepLog) (c : Config),
      Run (HonestStep Preset.goal.graph {}) (Preset.goal.graph.start "task" longestRequest) l c ∧
        c.next = none ∧ l.length = 934 ∧ graphRecursionLimit < l.length := by
  obtain ⟨l, c, hrun, hend, hlen⟩ := exists_longest_run Preset.builtinDevTools "task"
    (show Py.truthy longestRequest.verifyCommand = true by decide)
  rw [← Preset.graph_eq] at hrun
  exact ⟨l, c, hrun, hend, hlen, by rw [hlen]; decide⟩

end AgentRoom
