import AgentRoom.Realization

set_option autoImplicit false

/-! # The budgets of a run

A run without resumes pays for every superstep: the developer's turn from the tool budget,
a review from `max_revisions`, a verification from `max_iterations`. `Control.rank` adds up
what is left. Each superstep lowers it, so it bounds the length of every run.
-/

namespace AgentRoom

open Transition

/-! ## What is left to pay -/

namespace Preset

/-- The supersteps of one developer turn: eight tool rounds and the final reply. -/
def turn (p : Preset) : Nat := if p.usesTools then 17 else 1

/-- The supersteps of one more review round, from the developer to the next verdict. -/
def reviewLoop : Preset → Nat
  | .goal => 19
  | p => p.turn + 1

end Preset

namespace Ledger

/-- What is left of the developer's turn when it is scheduled. -/
def turnLeft (p : Preset) (l : Ledger) : Nat :=
  if p.usesTools then 2 * (8 - l.devRound) + 1 else 1

/-- What is left from a scheduled reviewer on: its verdict, the further rounds it may ask for,
and the delivery. -/
def reviewsLeft (p : Preset) (l : Ledger) : Nat :=
  2 + (l.maxRevisions - l.revisionRound) * p.reviewLoop

/-- What is left from a scheduled verifier on. With an oracle it is the further iterations of
18 supersteps, two more at each third failure, and the delivery. -/
def checksLeft (p : Preset) (l : Ledger) : Nat :=
  if l.hasOracle then
    2 + 18 * (l.maxIterations - (l.verifyRound + 1)) +
      2 * ((l.maxIterations - 1) / 3 - l.verifyRound / 3)
  else 1 + l.reviewsLeft p

/-- What is left once the developer hands over. -/
def handoverLeft (p : Preset) (l : Ledger) : Nat :=
  match p with
  | .goal => l.checksLeft .goal
  | .solo => 0
  | p => l.reviewsLeft p

end Ledger

namespace Control

/-- **The rank**: a bound on the supersteps a run can still take. -/
def rank (p : Preset) (c : Control) : Nat :=
  match c.next with
  | none => 0
  | some .delivery => 1
  | some .reviewer => c.reviewsLeft p
  | some .verify => c.checksLeft p
  | some .developer => c.turnLeft p + c.handoverLeft p
  | some (.tools _) => 2 * (8 - c.devRound) + 2 + c.handoverLeft p
  | some .planner => 1 + p.turn + c.handoverLeft p
  | some .supervisor => 2 + p.turn + c.handoverLeft p

/-- A run that has not been resumed is within its budgets. -/
structure Budgeted (p : Preset) (c : Control) : Prop where
  revisions : c.revisionRound ≤ c.maxRevisions + 1
  revisions_open : c.next ≠ none → c.next ≠ some .delivery → c.revisionRound ≤ c.maxRevisions
  iterations : c.verifyRound ≤ c.maxIterations
  iterations_open : c.next ≠ none → c.next ≠ some .delivery → c.verifyRound < c.maxIterations
  verify_goal : c.next = some .verify → p = .goal
  supervisor_goal : c.next = some .supervisor →
    p = .goal ∧ c.hasOracle = true ∧ c.verifyRound % stuckEvery = 0 ∧ 0 < c.verifyRound
  reviewer_goal : p = .goal → c.hasOracle = true → c.next ≠ some .reviewer
  tools_used : ∀ n, c.next = some (.tools n) → p.usesTools = true

end Control

/-! ## One superstep -/

namespace Ledger

/-- One developer turn never has more left than a whole turn. -/
theorem turnLeft_le_turn (p : Preset) (l : Ledger) : l.turnLeft p ≤ p.turn := by
  unfold turnLeft Preset.turn
  split <;> omega

theorem turnLeft_pos (p : Preset) (l : Ledger) : 1 ≤ l.turnLeft p := by
  unfold turnLeft
  split <;> omega

@[simp] theorem planner_handoverLeft (p : Preset) (x : Choice) (l : Ledger) :
    (l.planner p x).handoverLeft p = l.handoverLeft p := by
  cases p <;> simp [handoverLeft, checksLeft, reviewsLeft]

@[simp] theorem developer_handoverLeft (p : Preset) (l : Ledger) :
    (l.developer p).handoverLeft p = l.handoverLeft p := by
  cases p <;> simp [handoverLeft, checksLeft, reviewsLeft]

@[simp] theorem supervisor_handoverLeft (p : Preset) (x : Choice) (l : Ledger) :
    (l.supervisor x).handoverLeft p = l.handoverLeft p := by
  cases p <;> rfl

/-- A further review round pays for the developer's turn and the way back to the reviewer. -/
theorem reviewer_handoverLeft_le {p : Preset} {l : Ledger} (x : Choice)
    (hr : l.revisionRound + 1 ≤ l.maxRevisions) (hp : p = .goal → l.hasOracle = false) :
    p.turn + (l.reviewer p x).handoverLeft p + 1 ≤ l.reviewsLeft p := by
  obtain ⟨k, hk⟩ : ∃ k, l.maxRevisions - l.revisionRound = k + 1 :=
    ⟨l.maxRevisions - l.revisionRound - 1, by omega⟩
  have hk' : l.maxRevisions - (l.revisionRound + 1) = k := by omega
  cases p <;>
    simp [handoverLeft, checksLeft, reviewsLeft, reviewer, hk, hk', Preset.turn,
      Preset.reviewLoop, Preset.usesTools, hp] <;> omega

/-- A failed iteration that is not the last pays for the next one, and each third failure for
the supervisor and a new plan. -/
theorem checksLeft_succ_le {l : Ledger} (x : Choice) (ho : l.hasOracle = true)
    (hi : l.verifyRound + 1 < l.maxIterations) :
    (if (l.verifyRound + 1) % stuckEvery = 0 then 2 else 0) + 17 +
      (l.verify x).handoverLeft .goal + 1 ≤ l.checksLeft .goal := by
  have hfield : (l.verify x).handoverLeft .goal =
      2 + 18 * (l.maxIterations - (l.verifyRound + 2)) +
        2 * ((l.maxIterations - 1) / 3 - (l.verifyRound + 1) / 3) := by
    rw [verify_of_hasOracle ho]
    simp [handoverLeft, checksLeft, ho]
  rw [hfield, checksLeft, if_pos ho]
  unfold stuckEvery
  split <;> omega

/-- A task with an oracle always has a verification and its delivery to pay. -/
theorem two_le_checksLeft (p : Preset) {l : Ledger} (ho : l.hasOracle = true) :
    2 ≤ l.checksLeft p := by
  rw [checksLeft, if_pos ho]
  omega

end Ledger

namespace Control.Budgeted

/-- A checkpoint within both budgets may schedule any node of the developer's cycle. -/
theorem goto_open {p : Preset} {l : Ledger} {next : Option NodeName}
    (hr : l.revisionRound ≤ l.maxRevisions) (hi : l.verifyRound < l.maxIterations)
    (hverify : next = some .verify → p = .goal) (hsup : next ≠ some .supervisor)
    (hrev : p = .goal → l.hasOracle = true → next ≠ some .reviewer)
    (htools : ∀ n, next = some (.tools n) → p.usesTools = true) : (l.goto next).Budgeted p where
  revisions := Nat.le_succ_of_le hr
  revisions_open := fun _ _ => hr
  iterations := Nat.le_of_lt hi
  iterations_open := fun _ _ => hi
  verify_goal := hverify
  supervisor_goal := fun h => absurd h hsup
  reviewer_goal := hrev
  tools_used := htools

/-- Once the loops are left, both budgets may be used up. -/
theorem goto_closed {p : Preset} {l : Ledger} {next : Option NodeName}
    (hr : l.revisionRound ≤ l.maxRevisions + 1) (hi : l.verifyRound ≤ l.maxIterations)
    (hnext : next = none ∨ next = some .delivery) : (l.goto next).Budgeted p := by
  rcases hnext with rfl | rfl <;>
    exact ⟨hr, by simp, hi, by simp, by simp, by simp, by simp, by simp⟩

/-- Before the delivery both budgets are open. -/
theorem budgets_open {p : Preset} {c : Control} (h : c.Budgeted p) {n : NodeName}
    (hn : c.next = some n) (hne : n ≠ .delivery) :
    c.revisionRound ≤ c.maxRevisions ∧ c.verifyRound < c.maxIterations := by
  have hd : c.next ≠ some .delivery := by
    rw [hn]
    simpa using hne
  exact ⟨h.revisions_open (by simp [hn]) hd, h.iterations_open (by simp [hn]) hd⟩

theorem step {p : Preset} {c : Control} (h : c.Budgeted p) (x : Choice) :
    (c.step p x).Budgeted p := by
  have hout := Control.outcome_step p x c
  generalize c.step p x = c' at hout ⊢
  cases hout with
  | idle _ => exact h
  | planned hn =>
      obtain ⟨hr, hi⟩ := h.budgets_open hn (by decide)
      exact goto_open (by simpa using hr) (by simpa using hi) (by simp) (by simp) (by simp)
        (by simp)
  | gated hn _ _ =>
      exact goto_closed (by simpa using h.revisions) (by simpa using h.iterations) (.inl rfl)
  | toolCall hn hu _ =>
      obtain ⟨hr, hi⟩ := h.budgets_open hn (by decide)
      exact goto_open (by simpa using hr) (by simpa using hi) (by simp) (by simp) (by simp)
        (fun _ _ => hu)
  | developed hn =>
      obtain ⟨hr, hi⟩ := h.budgets_open hn (by decide)
      refine goto_open (by simpa using hr) (by simpa using hi) ?_ ?_ ?_ ?_ <;>
        cases p <;> simp [Preset.afterDeveloper]
  | unverified hn ho =>
      obtain rfl := h.verify_goal hn
      obtain ⟨hr, hi⟩ := h.budgets_open hn (by decide)
      exact goto_open hr hi (by simp) (by simp) (by simp [ho]) (by simp)
  | passed hn ho _ =>
      obtain ⟨-, hi⟩ := h.budgets_open hn (by decide)
      exact goto_closed (by simpa using h.revisions)
        (by rw [Ledger.verify_of_hasOracle ho]; exact hi) (.inr rfl)
  | lastFailure hn ho _ _ =>
      obtain ⟨-, hi⟩ := h.budgets_open hn (by decide)
      exact goto_closed (by simpa using h.revisions)
        (by rw [Ledger.verify_of_hasOracle ho]; exact hi) (.inl rfl)
  | stuck hn ho _ hlt hthird =>
      obtain rfl := h.verify_goal hn
      obtain ⟨hr, -⟩ := h.budgets_open hn (by decide)
      -- the supervisor's own obligation: a third failure has just been counted
      have hround : (c.toLedger.verify x).verifyRound = c.verifyRound + 1 := by
        rw [Ledger.verify_of_hasOracle ho]
      exact ⟨by simp; omega, by simpa using hr, by simp [hround]; omega,
        by simp [hround]; omega, by simp, by simp [hround, ho, hthird], by simp, by simp⟩
  | failed hn ho _ hlt _ =>
      obtain ⟨hr, -⟩ := h.budgets_open hn (by decide)
      exact goto_open (by simpa using hr) (by rw [Ledger.verify_of_hasOracle ho]; exact hlt)
        (by simp) (by simp) (by simp) (by simp)
  | carriedOn hn _ | replanned hn _ =>
      obtain ⟨hr, hi⟩ := h.budgets_open hn (by decide)
      exact goto_open hr hi (by simp) (by simp) (by simp) (by simp)
  | halted hn _ => exact goto_closed h.revisions h.iterations (.inl rfl)
  | approved hn _ =>
      obtain ⟨hr, hi⟩ := h.budgets_open hn (by decide)
      refine goto_closed (Nat.succ_le_succ hr) (Nat.le_of_lt hi) ?_
      cases p.delivers <;> simp
  | escalated hn _ | exhausted hn _ _ =>
      obtain ⟨hr, hi⟩ := h.budgets_open hn (by decide)
      exact goto_closed (Nat.succ_le_succ hr) (Nat.le_of_lt hi) (.inl rfl)
  | sentBack hn _ hleft =>
      obtain ⟨-, hi⟩ := h.budgets_open hn (by decide)
      exact goto_open hleft hi (by simp) (by simp) (by simp) (by simp)
  | delivered _ => exact goto_closed h.revisions h.iterations (.inl rfl)
  | interrupted _ _ =>
      exact ⟨h.revisions, h.revisions_open, h.iterations, h.iterations_open, h.verify_goal,
        h.supervisor_goal, h.reviewer_goal, h.tools_used⟩
  | toolsRan hn _ =>
      obtain ⟨hr, hi⟩ := h.budgets_open hn (by simp)
      exact goto_open hr hi (by simp) (by simp) (by simp) (by simp)

/-- Handing over leaves what the handover leaves. -/
theorem rank_handover (p : Preset) (l : Ledger) :
    (l.goto p.afterDeveloper).rank p = l.handoverLeft p := by
  cases p <;> rfl

/-- **Every superstep pays.** -/
theorem rank_step {p : Preset} {c : Control} (h : c.Budgeted p) {x : Choice}
    (hx : x.interrupts = false) (hhonest : c.Honest p x) (hnext : c.next ≠ none) :
    (c.step p x).rank p + 1 ≤ c.rank p := by
  have hout := Control.outcome_step p x c
  generalize c.step p x = c' at hout ⊢
  cases hout with
  | idle hn => exact absurd hn hnext
  | planned hn =>
      -- the planner has paid for a whole turn, whatever the budget it leaves
      have hturn := (c.toLedger.planner p x).turnLeft_le_turn p
      simp only [rank, hn, Ledger.goto_next, Ledger.goto_toLedger, Ledger.planner_handoverLeft]
      omega
  | gated hn _ _ =>
      simp only [rank, hn, Ledger.goto_next]
      omega
  | toolCall hn hu hc =>
      -- only a call with bound tools may ask for one
      obtain ⟨-, hlt⟩ := hhonest hn hc
      have hround : (c.toLedger.developer p).devRound = c.devRound + 1 := by
        rw [Ledger.developer, if_pos hu]
      simp only [rank, hn, Ledger.goto_next, Ledger.goto_toLedger, hround,
        Ledger.developer_handoverLeft, Ledger.turnLeft, if_pos hu]
      omega
  | developed hn =>
      -- the final reply is what is left of a turn at least
      have hpos := c.toLedger.turnLeft_pos p
      rw [rank_handover, Ledger.developer_handoverLeft]
      simp only [rank, hn]
      omega
  | unverified hn ho =>
      obtain rfl := h.verify_goal hn
      have hchecks : c.toLedger.checksLeft .goal = 1 + c.toLedger.reviewsLeft .goal := by
        rw [Ledger.checksLeft, if_neg (by rw [ho]; simp)]
      have hreviews : Ledger.reviewsLeft .goal { c.toLedger with verification := none }
          = c.toLedger.reviewsLeft .goal := rfl
      simp only [rank, hn, Ledger.goto_next, Ledger.goto_toLedger, hchecks, hreviews]
      omega
  | passed hn ho _ =>
      have hleft := Ledger.two_le_checksLeft p ho
      simp only [rank, hn, Ledger.goto_next]
      exact hleft
  | lastFailure hn ho _ _ =>
      have hleft := Ledger.two_le_checksLeft p ho
      simp only [rank, hn, Ledger.goto_next]
      omega
  | stuck hn ho _ hlt hthird =>
      obtain rfl := h.verify_goal hn
      -- a third failure pays for the supervisor and a new plan as well
      have hpay := Ledger.checksLeft_succ_le x ho hlt
      rw [if_pos hthird] at hpay
      simp only [rank, hn, Ledger.goto_next, Ledger.goto_toLedger, Preset.turn,
        Preset.usesTools, if_true]
      omega
  | failed hn ho _ hlt hthird =>
      obtain rfl := h.verify_goal hn
      have hpay := Ledger.checksLeft_succ_le x ho hlt
      have hturn := (c.toLedger.verify x).turnLeft_le_turn .goal
      rw [if_neg hthird] at hpay
      -- the next iteration starts with a turn of 17 supersteps at most
      simp only [Preset.turn, Preset.usesTools, if_true] at hturn
      simp only [rank, hn, Ledger.goto_next, Ledger.goto_toLedger]
      omega
  | carriedOn hn _ =>
      have hturn := (c.toLedger.supervisor x).turnLeft_le_turn p
      simp only [rank, hn, Ledger.goto_next, Ledger.goto_toLedger,
        Ledger.supervisor_handoverLeft]
      omega
  | replanned hn _ =>
      simp only [rank, hn, Ledger.goto_next, Ledger.goto_toLedger,
        Ledger.supervisor_handoverLeft]
      omega
  | halted hn _ =>
      simp only [rank, hn, Ledger.goto_next]
      omega
  | approved hn _ =>
      have hleft : 2 ≤ c.toLedger.reviewsLeft p := Nat.le_add_right _ _
      cases p.delivers <;> simp [rank, hn] <;> omega
  | escalated hn _ | exhausted hn _ _ =>
      have hleft : 2 ≤ c.toLedger.reviewsLeft p := Nat.le_add_right _ _
      simp only [rank, hn, Ledger.goto_next]
      omega
  | sentBack hn _ hmore =>
      -- in goal mode the reviewer is reached without an oracle only
      have hgoal : p = .goal → c.hasOracle = false := fun hp => by
        by_contra ho
        exact h.reviewer_goal hp (by simpa using ho) hn
      have hpay := Ledger.reviewer_handoverLeft_le x hmore hgoal
      have hturn := (c.toLedger.reviewer p x).turnLeft_le_turn p
      simp only [rank, hn, Ledger.goto_next, Ledger.goto_toLedger]
      omega
  | delivered hn => simp [rank, hn]
  | interrupted _ hi =>
      rw [hx] at hi
      cases hi
  | toolsRan hn _ =>
      have hu := h.tools_used _ hn
      simp only [rank, hn, Ledger.goto_next, Ledger.goto_toLedger, Ledger.turnLeft, hu, if_true]
      omega

end Control.Budgeted

/-! ## The length of a run -/

theorem start_budgeted (p : Preset) (tools : List Tool) (taskId : String) (req : TaskRequest) :
    ((p.compiled tools false).start taskId req).control.Budgeted p := by
  have hi := req.one_le_maxIterations
  rw [Preset.start_control]
  exact Control.Budgeted.goto_open (Nat.zero_le _) hi (by cases p <;> simp [Preset.delivers])
    (by cases p <;> simp [Preset.delivers]) (by rintro rfl; simp [Preset.delivers])
    (by cases p <;> simp [Preset.delivers])

/-- A run takes at most as many supersteps as its start has to pay. -/
theorem run_length_le_rank {p : Preset} {tools : List Tool} {b : Bindings} {c c' : Config}
    {l : List StepLog} (hc : c.control.Budgeted p)
    (hrun : Run (HonestStep (p.compiled tools false) b) c l c') :
    c'.control.Budgeted p ∧ l.length + c'.control.rank p ≤ c.control.rank p := by
  refine hrun.length_add_rank_le (P := fun c => c.control.Budgeted p)
    (fun c => c.control.rank p) ?_ hc
  intro c e c' hb hs
  obtain ⟨hnext, hx, hhonest, hc'⟩ := Preset.honestStep_control hs
  rw [hc']
  exact ⟨hb.step _, hb.rank_step hx hhonest hnext⟩

/-- What a task has to pay on each preset. -/
theorem rank_start_le (p : Preset) (tools : List Tool) (taskId : String) (req : TaskRequest) :
    ((p.compiled tools false).start taskId req).control.rank p ≤
      if p = .goal ∧ Py.truthy req.verifyCommand = true then
        2 + 18 * req.maxIterations + 2 * ((req.maxIterations - 1) / 3)
      else 211 := by
  have hm := req.maxRevisions_le
  have hi := req.one_le_maxIterations
  rw [Preset.start_control]
  -- without an oracle only the ten review rounds count
  cases p <;>
    simp [Control.rank, Preset.delivers, Preset.turn, Preset.usesTools, Ledger.handoverLeft,
      Ledger.reviewsLeft, Ledger.checksLeft, Ledger.turnLeft, Preset.reviewLoop] <;>
    first | omega | skip
  split_ifs <;> omega

end AgentRoom
