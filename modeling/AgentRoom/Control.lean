import AgentRoom.Compiled

set_option autoImplicit false

/-! # The control skeleton

The path a task takes through a preset depends on a few bits and counters of its state.
`Control` is that part of a checkpoint, `Choice` the part of a node's outcome it reacts to,
and `Control.step` one superstep on it: an abstract machine with no prompts, no transcripts
and no texts. The counters, budgets and statuses are all settled on this machine.
-/

namespace AgentRoom

/-- What the routers, the counters and the status read in a state. -/
structure Ledger where
  review : Option ReviewDecision
  revisionRound : Nat
  maxRevisions : Nat
  /-- The plan is not empty. -/
  planned : Bool
  /-- There are open questions. -/
  asked : Bool
  /-- The delivery is not empty. -/
  delivered : Bool
  /-- The task has a verify command. -/
  hasOracle : Bool
  verification : Option Bool
  verifyRound : Nat
  maxIterations : Nat
  stuck : Option StuckAction
  /-- The developer's transcript has begun. -/
  transcript : Bool
  devRound : Nat
  deriving DecidableEq, Repr

/-- A checkpoint, as far as control goes. -/
structure Control extends Ledger where
  next : Option NodeName
  /-- A tool call waits for a decision. -/
  interrupted : Bool := false
  deriving DecidableEq, Repr

/-- What one superstep decides. A node looks at its own entries only. -/
structure Choice where
  plans : Bool := true
  asks : Bool := false
  calls : Bool := false
  passes : Bool := false
  delivers : Bool := true
  interrupts : Bool := false
  verdict : ReviewDecision := .approved
  action : StuckAction := .continue
  deriving DecidableEq, Repr

namespace Ledger

/-! ## What each node writes -/

def planner (p : Preset) (x : Choice) (l : Ledger) : Ledger :=
  if p = .plannerGate then
    -- a gate without questions leaves the earlier review in place
    { l with
      planned := x.plans
      asked := x.asks
      review := if x.asks then some .needUserDecision else l.review }
  else { l with planned := x.plans, devRound := if l.transcript then 0 else l.devRound }

def developer (p : Preset) (l : Ledger) : Ledger :=
  -- only the tool-using developer keeps a transcript and a budget
  if p.usesTools then { l with transcript := true, devRound := l.devRound + 1 } else l

def verify (x : Choice) (l : Ledger) : Ledger :=
  if l.hasOracle then
    { l with
      verification := some x.passes
      verifyRound := l.verifyRound + 1
      devRound := if !x.passes && l.transcript then 0 else l.devRound }
  else { l with verification := none }

def supervisor (x : Choice) (l : Ledger) : Ledger :=
  { l with
    stuck := some x.action
    review := if x.action = .askUser then some .needUserDecision else l.review }

def reviewer (p : Preset) (x : Choice) (l : Ledger) : Ledger :=
  { l with
    review := some x.verdict
    revisionRound := l.revisionRound + 1
    asked := if p = .twoCallReview then x.asks else l.asked
    devRound :=
      if p ≠ .twoCallReview ∧ x.verdict = .revisionRequired ∧ l.transcript then 0
      else l.devRound }

def delivery (x : Choice) (l : Ledger) : Ledger := { l with delivered := x.delivers }

/-! ## Where each node hands over -/

def afterPlanner (p : Preset) (l : Ledger) : Option NodeName :=
  if p = .plannerGate ∧ (l.asked ∨ l.review = some .needUserDecision ∨ l.planned = false) then
    none
  else some .developer

def afterReview (p : Preset) (l : Ledger) : Option NodeName :=
  match l.review with
  | some .approved => if p.delivers then some .delivery else none
  | some .revisionRequired =>
      -- the round has been counted already when the router looks at it
      if l.maxRevisions < l.revisionRound then none else some .developer
  | _ => none

def afterVerify (l : Ledger) : Option NodeName :=
  match l.verification with
  | none => some .reviewer
  | some true => some .delivery
  | some false =>
      if l.maxIterations ≤ l.verifyRound then none
      else if 0 < l.verifyRound ∧ l.verifyRound % stuckEvery = 0 then some .supervisor
      else some .developer

def afterSupervisor (l : Ledger) : Option NodeName :=
  match l.stuck with
  | some .continue => some .developer
  | some .replan => some .planner
  | _ => none

/-- Schedule a node. -/
def goto (l : Ledger) (next : Option NodeName) : Control := { l with next := next }

@[simp] theorem goto_toLedger (l : Ledger) (next : Option NodeName) :
    (l.goto next).toLedger = l := rfl

@[simp] theorem goto_next (l : Ledger) (next : Option NodeName) : (l.goto next).next = next := rfl

@[simp] theorem goto_interrupted (l : Ledger) (next : Option NodeName) :
    (l.goto next).interrupted = false := rfl

/-- The planner hands over to the developer unless it is a gate. -/
theorem afterPlanner_of_ne {p : Preset} (hp : p ≠ .plannerGate) (l : Ledger) :
    l.afterPlanner p = some .developer :=
  if_neg (fun h => hp h.1)

theorem afterPlanner_cases (p : Preset) (l : Ledger) :
    l.afterPlanner p = none ∨ l.afterPlanner p = some .developer := by
  unfold afterPlanner
  split
  · exact .inl rfl
  · exact .inr rfl

section Unchanged

variable (p : Preset) (x : Choice) (l : Ledger)

@[simp] theorem planner_hasOracle : (l.planner p x).hasOracle = l.hasOracle := by
  unfold planner; split <;> rfl

@[simp] theorem planner_revisionRound : (l.planner p x).revisionRound = l.revisionRound := by
  unfold planner; split <;> rfl

@[simp] theorem planner_maxRevisions : (l.planner p x).maxRevisions = l.maxRevisions := by
  unfold planner; split <;> rfl

@[simp] theorem planner_verifyRound : (l.planner p x).verifyRound = l.verifyRound := by
  unfold planner; split <;> rfl

@[simp] theorem planner_maxIterations : (l.planner p x).maxIterations = l.maxIterations := by
  unfold planner; split <;> rfl

@[simp] theorem planner_verification : (l.planner p x).verification = l.verification := by
  unfold planner; split <;> rfl

@[simp] theorem planner_delivered : (l.planner p x).delivered = l.delivered := by
  unfold planner; split <;> rfl

@[simp] theorem developer_hasOracle : (l.developer p).hasOracle = l.hasOracle := by
  unfold developer; split <;> rfl

@[simp] theorem developer_revisionRound :
    (l.developer p).revisionRound = l.revisionRound := by
  unfold developer; split <;> rfl

@[simp] theorem developer_maxRevisions : (l.developer p).maxRevisions = l.maxRevisions := by
  unfold developer; split <;> rfl

@[simp] theorem developer_verifyRound : (l.developer p).verifyRound = l.verifyRound := by
  unfold developer; split <;> rfl

@[simp] theorem developer_maxIterations :
    (l.developer p).maxIterations = l.maxIterations := by
  unfold developer; split <;> rfl

@[simp] theorem developer_verification : (l.developer p).verification = l.verification := by
  unfold developer; split <;> rfl

@[simp] theorem developer_delivered : (l.developer p).delivered = l.delivered := by
  unfold developer; split <;> rfl

@[simp] theorem verify_hasOracle : (l.verify x).hasOracle = l.hasOracle := by
  unfold verify; split <;> rfl

@[simp] theorem verify_review : (l.verify x).review = l.review := by
  unfold verify; split <;> rfl

@[simp] theorem verify_delivered : (l.verify x).delivered = l.delivered := by
  unfold verify; split <;> rfl

@[simp] theorem verify_revisionRound : (l.verify x).revisionRound = l.revisionRound := by
  unfold verify; split <;> rfl

@[simp] theorem verify_maxRevisions : (l.verify x).maxRevisions = l.maxRevisions := by
  unfold verify; split <;> rfl

@[simp] theorem verify_maxIterations : (l.verify x).maxIterations = l.maxIterations := by
  unfold verify; split <;> rfl

end Unchanged

theorem verify_of_hasOracle {l : Ledger} (h : l.hasOracle = true) (x : Choice) :
    l.verify x =
      { l with
        verification := some x.passes
        verifyRound := l.verifyRound + 1
        devRound := if !x.passes && l.transcript then 0 else l.devRound } :=
  if_pos h

theorem verify_of_not_hasOracle {l : Ledger} (h : l.hasOracle = false) (x : Choice) :
    l.verify x = { l with verification := none } :=
  if_neg (by simp [h])

/-- Where the verifier hands over when it has run the oracle. -/
theorem afterVerify_of_hasOracle {l : Ledger} (h : l.hasOracle = true) (x : Choice) :
    (l.verify x).afterVerify =
      if x.passes then some .delivery
      else if l.maxIterations ≤ l.verifyRound + 1 then none
      else if (l.verifyRound + 1) % stuckEvery = 0 then some .supervisor
      else some .developer := by
  rw [verify_of_hasOracle h]
  cases hp : x.passes <;> simp [afterVerify]

theorem afterVerify_of_not_hasOracle {l : Ledger} (h : l.hasOracle = false) (x : Choice) :
    (l.verify x).afterVerify = some .reviewer := by
  rw [verify_of_not_hasOracle h]
  rfl

/-- Where the reviewer hands over. -/
theorem afterReview_reviewer (p : Preset) (x : Choice) (l : Ledger) :
    (l.reviewer p x).afterReview p =
      match x.verdict with
      | .approved => if p.delivers then some .delivery else none
      | .revisionRequired =>
          if l.maxRevisions < l.revisionRound + 1 then none else some .developer
      | .needUserDecision => none := by
  cases hv : x.verdict <;> simp [afterReview, reviewer, hv]

/-- The status of a ledger. -/
def status (l : Ledger) (interrupted : Bool) : TaskStatus :=
  if interrupted then .awaitingUser
  else if l.delivered then .completed
  else if l.review = some .needUserDecision then .awaitingUser
  else if l.review = some .revisionRequired ∧ l.maxRevisions < l.revisionRound then .failed
  else if l.stuck = some .abort then .failed
  else if l.verification = some false ∧ l.maxIterations ≤ l.verifyRound then .failed
  else .running

end Ledger

namespace Control

/-- **One superstep of the abstract machine.** -/
def step (p : Preset) (x : Choice) (c : Control) : Control :=
  match c.next with
  | none => c
  | some .planner => let l := c.toLedger.planner p x; l.goto (l.afterPlanner p)
  | some .developer =>
      (c.toLedger.developer p).goto
        (if p.usesTools && x.calls then some (.tools .developer) else p.afterDeveloper)
  | some (.tools _) =>
      -- an interrupted tool node stays scheduled
      if x.interrupts then { c with interrupted := true } else c.toLedger.goto (some .developer)
  | some .verify => let l := c.toLedger.verify x; l.goto l.afterVerify
  | some .supervisor => let l := c.toLedger.supervisor x; l.goto l.afterSupervisor
  | some .reviewer => let l := c.toLedger.reviewer p x; l.goto (l.afterReview p)
  | some .delivery => (c.toLedger.delivery x).goto none

section Step

variable {p : Preset} {x : Choice} {c : Control}

theorem step_planner (h : c.next = some .planner) :
    c.step p x = (c.toLedger.planner p x).goto ((c.toLedger.planner p x).afterPlanner p) := by
  simp only [step, h]

theorem step_developer (h : c.next = some .developer) :
    c.step p x = (c.toLedger.developer p).goto
      (if p.usesTools && x.calls then some (.tools .developer) else p.afterDeveloper) := by
  simp only [step, h]

theorem step_tools {n : NodeName} (h : c.next = some (.tools n)) :
    c.step p x = if x.interrupts then { c with interrupted := true }
      else c.toLedger.goto (some .developer) := by
  simp only [step, h]

theorem step_verify (h : c.next = some .verify) :
    c.step p x = (c.toLedger.verify x).goto (c.toLedger.verify x).afterVerify := by
  simp only [step, h]

theorem step_supervisor (h : c.next = some .supervisor) :
    c.step p x = (c.toLedger.supervisor x).goto (c.toLedger.supervisor x).afterSupervisor := by
  simp only [step, h]

theorem step_reviewer (h : c.next = some .reviewer) :
    c.step p x = (c.toLedger.reviewer p x).goto ((c.toLedger.reviewer p x).afterReview p) := by
  simp only [step, h]

theorem step_delivery (h : c.next = some .delivery) :
    c.step p x = (c.toLedger.delivery x).goto none := by
  simp only [step, h]

end Step

/-- **What one superstep can do**: the node that is scheduled, the choice it takes there, and
the state that follows. -/
inductive Outcome (p : Preset) (x : Choice) (c : Control) : Control → Prop
  | idle : c.next = none → Outcome p x c c
  | planned : c.next = some .planner →
      Outcome p x c ((c.toLedger.planner p x).goto (some .developer))
  | gated : c.next = some .planner → p = .plannerGate →
      (c.toLedger.planner p x).afterPlanner p = none →
      Outcome p x c ((c.toLedger.planner p x).goto none)
  | toolCall : c.next = some .developer → p.usesTools = true → x.calls = true →
      Outcome p x c ((c.toLedger.developer p).goto (some (.tools .developer)))
  | developed : c.next = some .developer →
      Outcome p x c ((c.toLedger.developer p).goto p.afterDeveloper)
  | unverified : c.next = some .verify → c.hasOracle = false →
      Outcome p x c (Ledger.goto { c.toLedger with verification := none } (some .reviewer))
  | passed : c.next = some .verify → c.hasOracle = true → x.passes = true →
      Outcome p x c ((c.toLedger.verify x).goto (some .delivery))
  | lastFailure : c.next = some .verify → c.hasOracle = true → x.passes = false →
      c.maxIterations ≤ c.verifyRound + 1 → Outcome p x c ((c.toLedger.verify x).goto none)
  | stuck : c.next = some .verify → c.hasOracle = true → x.passes = false →
      c.verifyRound + 1 < c.maxIterations → (c.verifyRound + 1) % stuckEvery = 0 →
      Outcome p x c ((c.toLedger.verify x).goto (some .supervisor))
  | failed : c.next = some .verify → c.hasOracle = true → x.passes = false →
      c.verifyRound + 1 < c.maxIterations → (c.verifyRound + 1) % stuckEvery ≠ 0 →
      Outcome p x c ((c.toLedger.verify x).goto (some .developer))
  | carriedOn : c.next = some .supervisor → x.action = .continue →
      Outcome p x c ((c.toLedger.supervisor x).goto (some .developer))
  | replanned : c.next = some .supervisor → x.action = .replan →
      Outcome p x c ((c.toLedger.supervisor x).goto (some .planner))
  | halted : c.next = some .supervisor → x.action = .askUser ∨ x.action = .abort →
      Outcome p x c ((c.toLedger.supervisor x).goto none)
  | approved : c.next = some .reviewer → x.verdict = .approved →
      Outcome p x c ((c.toLedger.reviewer p x).goto (if p.delivers then some .delivery else none))
  | escalated : c.next = some .reviewer → x.verdict = .needUserDecision →
      Outcome p x c ((c.toLedger.reviewer p x).goto none)
  | exhausted : c.next = some .reviewer → x.verdict = .revisionRequired →
      c.maxRevisions < c.revisionRound + 1 → Outcome p x c ((c.toLedger.reviewer p x).goto none)
  | sentBack : c.next = some .reviewer → x.verdict = .revisionRequired →
      c.revisionRound + 1 ≤ c.maxRevisions →
      Outcome p x c ((c.toLedger.reviewer p x).goto (some .developer))
  | delivered : c.next = some .delivery → Outcome p x c ((c.toLedger.delivery x).goto none)
  | interrupted {n : NodeName} : c.next = some (.tools n) → x.interrupts = true →
      Outcome p x c { c with interrupted := true }
  | toolsRan {n : NodeName} : c.next = some (.tools n) → x.interrupts = false →
      Outcome p x c (c.toLedger.goto (some .developer))

/-- Every step of the machine is one of its outcomes. -/
theorem outcome_step (p : Preset) (x : Choice) (c : Control) : Outcome p x c (c.step p x) := by
  -- the scheduled node decides which outcomes there are, its choice which one it is
  rcases hn : c.next with _ | (_ | _ | _ | _ | _ | _ | n)
  · simpa only [step, hn] using Outcome.idle hn
  · rw [step_planner hn]
    by_cases hgate : p = .plannerGate
    · rcases Ledger.afterPlanner_cases p (c.toLedger.planner p x) with ha | ha <;> rw [ha]
      · exact .gated hn hgate ha
      · exact .planned hn
    · rw [Ledger.afterPlanner_of_ne hgate]
      exact .planned hn
  · rw [step_developer hn]
    by_cases hcalls : (p.usesTools && x.calls) = true
    · obtain ⟨hu, hc⟩ := Bool.and_eq_true_iff.mp hcalls
      rw [if_pos hcalls]
      exact .toolCall hn hu hc
    · rw [if_neg hcalls]
      exact .developed hn
  · rw [step_verify hn]
    cases ho : c.hasOracle with
    | false =>
        rw [Ledger.afterVerify_of_not_hasOracle ho, Ledger.verify_of_not_hasOracle ho]
        exact .unverified hn ho
    | true =>
        rw [Ledger.afterVerify_of_hasOracle ho]
        split_ifs with hpass hlast hthird
        · exact .passed hn ho hpass
        · exact .lastFailure hn ho (by simpa using hpass) hlast
        · exact .stuck hn ho (by simpa using hpass) (Nat.not_le.mp hlast) hthird
        · exact .failed hn ho (by simpa using hpass) (Nat.not_le.mp hlast) hthird
  · rw [step_supervisor hn]
    cases ha : x.action with
    | «continue» =>
        rw [show (c.toLedger.supervisor x).afterSupervisor = some .developer by
          simp [Ledger.afterSupervisor, Ledger.supervisor, ha]]
        exact .carriedOn hn ha
    | replan =>
        rw [show (c.toLedger.supervisor x).afterSupervisor = some .planner by
          simp [Ledger.afterSupervisor, Ledger.supervisor, ha]]
        exact .replanned hn ha
    | askUser =>
        rw [show (c.toLedger.supervisor x).afterSupervisor = none by
          simp [Ledger.afterSupervisor, Ledger.supervisor, ha]]
        exact .halted hn (.inl ha)
    | abort =>
        rw [show (c.toLedger.supervisor x).afterSupervisor = none by
          simp [Ledger.afterSupervisor, Ledger.supervisor, ha]]
        exact .halted hn (.inr ha)
  · rw [step_reviewer hn, Ledger.afterReview_reviewer]
    cases hv : x.verdict with
    | approved => exact .approved hn hv
    | needUserDecision => exact .escalated hn hv
    | revisionRequired =>
        by_cases hmax : c.maxRevisions < c.revisionRound + 1
        · simp only [if_pos hmax]
          exact .exhausted hn hv hmax
        · simp only [if_neg hmax]
          exact .sentBack hn hv (Nat.not_lt.mp hmax)
  · rw [step_delivery hn]
    exact .delivered hn
  · rw [step_tools hn]
    cases hi : x.interrupts with
    | true => exact .interrupted hn hi
    | false => exact .toolsRan hn hi

section Counters

variable {p : Preset} {c c' : Control} {x : Choice}

/-- Only the reviewer counts a revision. -/
theorem Outcome.revisionRound (h : Outcome p x c c') : c'.revisionRound =
    c.revisionRound + if c.next = some .reviewer then 1 else 0 := by
  cases h <;> simp [*, Ledger.supervisor, Ledger.reviewer, Ledger.delivery]

/-- Only a verifier with an oracle counts a verification. -/
theorem Outcome.verifyRound (h : Outcome p x c c') : c'.verifyRound =
    c.verifyRound + if c.next = some .verify ∧ c.hasOracle = true then 1 else 0 := by
  cases h <;> simp [*, Ledger.verify, Ledger.supervisor, Ledger.reviewer, Ledger.delivery]

/-- No superstep changes the limits of the task. -/
theorem Outcome.limits (h : Outcome p x c c') : c'.maxRevisions = c.maxRevisions ∧
    c'.maxIterations = c.maxIterations ∧ c'.hasOracle = c.hasOracle := by
  cases h <;> simp [Ledger.supervisor, Ledger.reviewer, Ledger.delivery]

theorem step_revisionRound (x : Choice) : (c.step p x).revisionRound =
    c.revisionRound + if c.next = some .reviewer then 1 else 0 :=
  (outcome_step p x c).revisionRound

theorem step_verifyRound (x : Choice) : (c.step p x).verifyRound =
    c.verifyRound + if c.next = some .verify ∧ c.hasOracle = true then 1 else 0 :=
  (outcome_step p x c).verifyRound

@[simp] theorem step_maxRevisions (x : Choice) : (c.step p x).maxRevisions = c.maxRevisions :=
  (outcome_step p x c).limits.1

@[simp] theorem step_maxIterations (x : Choice) : (c.step p x).maxIterations = c.maxIterations :=
  (outcome_step p x c).limits.2.1

@[simp] theorem step_hasOracle (x : Choice) : (c.step p x).hasOracle = c.hasOracle :=
  (outcome_step p x c).limits.2.2

end Counters

/-- A resume at the reviewer. -/
def resumeReviewer (p : Preset) (c : Control) : Control :=
  let l : Ledger := { c.toLedger with review := some .revisionRequired }
  l.goto (l.afterReview p)

/-- A resume at the planner. -/
def resumePlanner (p : Preset) (c : Control) : Control :=
  let l : Ledger := { c.toLedger with review := none, asked := false }
  l.goto (l.afterPlanner p)

def status (c : Control) : TaskStatus := c.toLedger.status c.interrupted

/-- The developer asks for tools only when the call bound them. -/
def Honest (p : Preset) (x : Choice) (c : Control) : Prop :=
  c.next = some .developer → x.calls = true → p.usesTools = true ∧ c.devRound < 8

end Control

/-! ## The skeleton of the concrete objects -/

/-- What control sees of a state. -/
def TaskState.ledger (s : TaskState) : Ledger where
  review := s.review.map ReviewerDecision.decision
  revisionRound := s.revisionRound
  maxRevisions := s.maxRevisions
  planned := Py.truthy s.plan
  asked := !s.openQuestions.isEmpty
  delivered := Py.truthy s.delivery
  hasOracle := Py.truthy s.verifyCommand
  verification := s.verification.map VerificationResult.passed
  verifyRound := s.verifyRound
  maxIterations := s.maxIterations
  stuck := s.stuckDecision.map StuckDecision.action
  transcript := decide (s.devMessages ≠ [])
  devRound := s.devRound

/-- What control sees of a checkpoint. -/
def Config.control (c : Config) : Control :=
  { c.values.ledger with next := c.next, interrupted := c.interrupt.isSome }

/-- What control sees of a node's outcome. -/
def NodeRun.choice (r : NodeRun) : Choice where
  plans := Py.truthy r.update.plan
  asks := !(r.update.openQuestions.getD []).isEmpty
  calls := decide (pendingCalls r.update.devMessages ≠ [])
  passes := (r.update.verification.getD none).any VerificationResult.passed
  delivers := Py.truthy r.update.delivery
  interrupts := r.interrupt.isSome
  verdict := ((r.update.review.getD none).map ReviewerDecision.decision).getD .approved
  action := (r.update.stuckDecision.map StuckDecision.action).getD .continue

@[simp] theorem Config.control_next (c : Config) : c.control.next = c.next := rfl

@[simp] theorem Config.control_toLedger (c : Config) : c.control.toLedger = c.values.ledger := rfl

theorem Config.interrupt_eq_none {c : Config} (h : c.control.interrupted = false) :
    c.interrupt = none := by
  simpa [Config.control] using h

/-- The status is a function of the skeleton. -/
theorem Config.status_eq (c : Config) : c.status = c.control.status := rfl

end AgentRoom
