import AgentRoom.Realization

set_option autoImplicit false

/-! # A run in flight is not terminal

The channels the status is read from survive into later rounds. The invariant below says that
a state with a node scheduled holds none of the values that read as terminal, whichever node
or resume left them there.
-/

namespace AgentRoom

open Transition

/-- A history whose resumes are issued while the task waits for the user. -/
def PatientStep (g : Graph) (b : Bindings) (c : Config) (a : Action) (c' : Config) : Prop :=
  ServiceStep g b c a c' ∧ ∀ d atNode, a = .resumed d atNode → c.status = .awaitingUser

/-- A run without resumes is such a history. -/
theorem patient_of_run {g : Graph} {b : Bindings} {c c' : Config} {l : List StepLog}
    (h : Run (HonestStep g b) c l c') : Run (PatientStep g b) c (l.map .superstep) c' :=
  h.map Action.superstep fun _ _ _ _ ⟨_, _, hs⟩ => ⟨.superstep hs, by simp⟩

namespace Ledger

/-- Nothing that outlives a resume reads as terminal. -/
structure Calm (l : Ledger) : Prop where
  delivered : l.delivered = false
  stuck : l.stuck ≠ some .abort
  verification : l.verification = some false → l.verifyRound < l.maxIterations

/-- The review lets the run go on. -/
structure Going (l : Ledger) : Prop extends Calm l where
  review : l.review ≠ some .needUserDecision
  rounds : l.review = some .revisionRequired → l.revisionRound ≤ l.maxRevisions

theorem Going.status {l : Ledger} (h : l.Going) : l.status false = .running := by
  obtain ⟨⟨hdelivered, hstuck, hverification⟩, hreview, hrounds⟩ := h
  have hfailed : ¬ (l.review = some .revisionRequired ∧ l.maxRevisions < l.revisionRound) := by
    rintro ⟨hr, hlt⟩
    have hle := hrounds hr
    omega
  have hlast : ¬ (l.verification = some false ∧ l.maxIterations ≤ l.verifyRound) := by
    rintro ⟨hv, hle⟩
    have hlt := hverification hv
    omega
  simp [Ledger.status, hdelivered, hreview, hfailed, hstuck, hlast]

/-- A task that waits for the user without a pending call has a question and no delivery. -/
theorem of_status_awaiting {l : Ledger} (h : l.status false = .awaitingUser) :
    l.delivered = false ∧ l.review = some .needUserDecision := by
  unfold Ledger.status at h
  cases hd : l.delivered with
  | true => simp [hd] at h
  | false =>
      refine ⟨rfl, ?_⟩
      by_contra hr
      simp only [hd, hr, Bool.false_eq_true, if_false] at h
      split_ifs at h

section Nodes

variable {p : Preset} {x : Choice} {l : Ledger}

theorem Calm.planner (h : l.Calm) : (l.planner p x).Calm := by
  obtain ⟨hd, hs, hv⟩ := h
  unfold Ledger.planner
  split <;> exact ⟨hd, hs, hv⟩

/-- The planner hands over with its own answer or the review it has found. -/
theorem Going.planner (h : l.Going) (hnext : (l.planner p x).afterPlanner p = some .developer) :
    (l.planner p x).Going := by
  refine ⟨h.toCalm.planner, ?_, ?_⟩
  · by_cases hp : p = .plannerGate
    · intro hask
      rw [afterPlanner, if_pos ⟨hp, .inr (.inl hask)⟩] at hnext
      cases hnext
    · simpa [Ledger.planner, hp] using h.review
  · intro hrev
    rw [planner_revisionRound, planner_maxRevisions]
    refine h.rounds ?_
    by_cases hp : p = .plannerGate
    · cases ha : x.asks <;> simp [Ledger.planner, hp, ha] at hrev
      exact hrev
    · simpa [Ledger.planner, hp] using hrev

theorem Calm.reviewer (h : l.Calm) : (l.reviewer p x).Calm := ⟨h.1, h.2, h.3⟩

/-- The supervisor leaves a calm ledger unless it aborts. -/
theorem Calm.supervisor (h : l.Calm) (hact : x.action ≠ .abort) : (l.supervisor x).Calm :=
  ⟨h.1, by simpa [Ledger.supervisor] using hact, h.3⟩

theorem Going.developer (h : l.Going) : (l.developer p).Going := by
  obtain ⟨⟨hd, hs, hv⟩, hr, hrounds⟩ := h
  unfold Ledger.developer
  split <;> exact ⟨⟨hd, hs, hv⟩, hr, hrounds⟩

/-- A verification that is not the last one to fail leaves the rest as it was. -/
theorem Going.verify (h : l.Going) (ho : l.hasOracle = true)
    (hlt : x.passes = true ∨ l.verifyRound + 1 < l.maxIterations) : (l.verify x).Going := by
  obtain ⟨⟨hd, hs, -⟩, hr, hrounds⟩ := h
  rw [verify_of_hasOracle ho]
  refine ⟨⟨hd, hs, fun hfail => ?_⟩, hr, hrounds⟩
  rcases hlt with hpass | hlt
  · rw [hpass] at hfail
    cases hfail
  · exact hlt

/-- The supervisor lets the run go on unless it stops it. -/
theorem Going.supervisor (h : l.Going) (hact : x.action = .continue ∨ x.action = .replan) :
    (l.supervisor x).Going := by
  have hne : x.action ≠ .abort ∧ x.action ≠ .askUser := by
    rcases hact with hact | hact <;> simp [hact]
  refine ⟨h.toCalm.supervisor hne.1, ?_, ?_⟩
  · simpa [Ledger.supervisor, hne.2] using h.review
  · simpa [Ledger.supervisor, hne.2] using h.rounds

end Nodes

end Ledger

namespace Control

/-- **The invariant**: what is scheduled can go on, and what has stopped with a question can go
on once it is answered. -/
structure InFlight (c : Control) : Prop where
  scheduled : c.next ≠ none → c.toLedger.Going
  asked : c.next = none → c.review = some .needUserDecision → c.delivered = false →
    c.toLedger.Calm
  interrupted : c.interrupted = true → c.next ≠ none

namespace InFlight

theorem goto {l : Ledger} {next : Option NodeName} (hgo : next ≠ none → l.Going)
    (hask : next = none → l.review = some .needUserDecision → l.delivered = false → l.Calm) :
    (l.goto next).InFlight :=
  ⟨hgo, hask, by simp⟩

/-- Where a node hands over. -/
theorem goto_some {l : Ledger} {n : NodeName} (h : l.Going) : (l.goto (some n)).InFlight :=
  goto (fun _ => h) (by simp)

/-- Where a run halts without a question. -/
theorem goto_none {l : Ledger} (h : l.review ≠ some .needUserDecision) :
    (l.goto none).InFlight :=
  goto (by simp) (fun _ hask => absurd hask h)

theorem step {p : Preset} {c : Control} (h : c.InFlight) (x : Choice) :
    (c.step p x).InFlight := by
  have hout := outcome_step p x c
  generalize hstep : c.step p x = c' at hout ⊢
  -- what is scheduled finds a ledger that can go on
  have hgo : ∀ {n : NodeName}, c.next = some n → c.toLedger.Going := fun hn =>
    h.scheduled (by simp [hn])
  cases hout with
  | idle hn => exact h
  | planned hn =>
      rw [step_planner hn] at hstep
      exact goto_some ((hgo hn).planner (congrArg Control.next hstep))
  | gated hn hp _ => exact goto (by simp) (fun _ _ _ => (hgo hn).toCalm.planner)
  | toolCall hn _ _ => exact goto_some (hgo hn).developer
  | developed hn =>
      have hl : (c.toLedger.developer p).Going := (hgo hn).developer
      exact goto (fun _ => hl) (fun _ hask => absurd hask hl.review)
  | unverified hn _ =>
      obtain ⟨⟨hd, hs, -⟩, hr, hrounds⟩ := hgo hn
      exact goto_some ⟨⟨hd, hs, by simp⟩, hr, hrounds⟩
  | passed hn ho hpass => exact goto_some ((hgo hn).verify ho (.inl hpass))
  | lastFailure hn _ _ _ => exact goto_none (by simpa using (hgo hn).review)
  | stuck hn ho _ hlt _ => exact goto_some ((hgo hn).verify ho (.inr hlt))
  | failed hn ho _ hlt _ => exact goto_some ((hgo hn).verify ho (.inr hlt))
  | carriedOn hn hact => exact goto_some ((hgo hn).supervisor (.inl hact))
  | replanned hn hact => exact goto_some ((hgo hn).supervisor (.inr hact))
  | halted hn hact =>
      rcases hact with hact | hact
      · exact goto (by simp) (fun _ _ _ => (hgo hn).toCalm.supervisor (by simp [hact]))
      · exact goto_none (by simpa [Ledger.supervisor, hact] using (hgo hn).review)
  | approved hn hv =>
      have hne : (c.toLedger.reviewer p x).review ≠ some .needUserDecision := by
        simp [Ledger.reviewer, hv]
      refine goto (fun _ => ⟨(hgo hn).toCalm.reviewer, hne, ?_⟩) (fun _ hask => absurd hask hne)
      simp [Ledger.reviewer, hv]
  | escalated hn _ => exact goto (by simp) (fun _ _ _ => (hgo hn).toCalm.reviewer)
  | exhausted hn hv _ => exact goto_none (by simp [Ledger.reviewer, hv])
  | sentBack hn hv hle =>
      exact goto_some ⟨(hgo hn).toCalm.reviewer, by simp [Ledger.reviewer, hv], fun _ => hle⟩
  | delivered hn => exact goto_none (hgo hn).review
  | interrupted hn _ => exact ⟨h.scheduled, h.asked, fun _ => by simp [hn]⟩
  | toolsRan hn _ => exact goto_some (hgo hn)

/-- A task that waits for the user is calm. -/
theorem calm_of_awaiting {c : Control} (h : c.InFlight) (hstatus : c.status = .awaitingUser) :
    c.toLedger.Calm := by
  by_cases hn : c.next = none
  · have hi : c.interrupted = false := by
      by_contra hi
      exact h.interrupted (by simpa using hi) hn
    rw [Control.status, hi] at hstatus
    obtain ⟨hd, hr⟩ := Ledger.of_status_awaiting hstatus
    exact h.asked hn hr hd
  · exact (h.scheduled hn).toCalm

theorem resumeReviewer (p : Preset) {c : Control} (h : c.toLedger.Calm) :
    (c.resumeReviewer p).InFlight := by
  obtain ⟨hd, hs, hv⟩ := h
  refine goto (fun hnext => ⟨⟨hd, hs, hv⟩, by simp, fun _ => ?_⟩) (by simp)
  -- over budget nothing is scheduled
  by_contra hlt
  rw [Ledger.afterReview, if_pos (Nat.not_le.mp hlt)] at hnext
  exact hnext rfl

theorem resumePlanner (p : Preset) {c : Control} (h : c.toLedger.Calm) :
    (c.resumePlanner p).InFlight := by
  obtain ⟨hd, hs, hv⟩ := h
  exact goto (fun _ => ⟨⟨hd, hs, hv⟩, by simp, by simp⟩) (by simp)

end InFlight

end Control

/-- Every checkpoint of such a history keeps the invariant. -/
theorem Control.InFlight.of_run {p : Preset} {tools : List Tool} {approval : Bool} {b : Bindings}
    {taskId : String} {req : TaskRequest} {h : List Action} {c : Config}
    (hrun : Run (PatientStep (p.compiled tools approval) b)
      ((p.compiled tools approval).start taskId req) h c) : c.control.InFlight := by
  refine hrun.invariant (P := fun c => c.control.InFlight) ?_ ?_
  · rintro c a c' hc ⟨hs, hpatient⟩
    cases Preset.serviceStep_served hs with
    | superstep _ hc' =>
        rw [hc']
        exact hc.step _
    | atReviewer _ _ hc' =>
        rw [hc']
        exact .resumeReviewer p (hc.calm_of_awaiting (hpatient _ _ rfl))
    | atPlanner _ _ hc' =>
        rw [hc']
        exact .resumePlanner p (hc.calm_of_awaiting (hpatient _ _ rfl))
    | atToolCall _ _ _ hc' =>
        rw [hc']
        exact ⟨hc.scheduled, hc.asked, by simp⟩
  · rw [Preset.start_control]
    exact ⟨fun _ => ⟨⟨rfl, by simp, by simp⟩, by simp, by simp⟩, by simp, by simp⟩

/-- What is scheduled reads as running. -/
theorem Control.InFlight.status {c : Config} (h : c.control.InFlight) (hnext : c.next ≠ none)
    (hint : c.interrupt = none) : c.status = .running := by
  have hgoing := (h.scheduled hnext).status
  rw [Config.status_eq]
  simpa [Control.status, Config.control, hint] using hgoing

/-- **A run in flight is running.** In a history whose resumes are issued while the task waits for
the user, every checkpoint with a node scheduled and no pending tool call reads as `running`. -/
theorem scheduled_running {p : Preset} {tools : List Tool} {approval : Bool} {b : Bindings}
    {taskId : String} {req : TaskRequest} {h : List Action} {c : Config}
    (hrun : Run (PatientStep (p.compiled tools approval) b)
      ((p.compiled tools approval).start taskId req) h c)
    (hnext : c.next ≠ none) (hint : c.interrupt = none) : c.status = .running :=
  (Control.InFlight.of_run hrun).status hnext hint

/-- A task that goes on after the user has answered its reviewer. -/
theorem scheduled_running_resumed :
    ∃ c : Config, c.next = some .developer ∧ c.control.review = some .revisionRequired ∧
      c.status = .running := by
  have hplay : ((Preset.full.compiled Preset.builtinDevTools false).start "task"
      { title := "t", description := "d" }).control.play .full
        ([{}, {}, { verdict := .needUserDecision }].map .node)
          = some ([.planner, .developer, .reviewer], _) := rfl
  obtain ⟨l, c, hrun, hc, -⟩ := Preset.exists_honest_run (by decide) hplay
  obtain ⟨c₁, hb⟩ := Preset.exists_resumeReviewer Preset.builtinDevTools false (p := .full)
    (by decide) c "use PostgreSQL"
  have hc₁ := (Preset.resumeReviewer_control hb).2.2.2
  rw [hc] at hc₁
  -- the supersteps of the run, and the resume
  have hresumed := (patient_of_run hrun).snoc ⟨.resume (by simp) hb, fun _ _ _ => by
    rw [Config.status_eq, hc]
    decide⟩
  have hnext : c₁.next = some .developer := congrArg Control.next hc₁
  refine ⟨c₁, hnext, congrArg (fun k => k.review) hc₁, ?_⟩
  exact scheduled_running hresumed (by simp [hnext])
    (Config.interrupt_eq_none (congrArg Control.interrupted hc₁))

end AgentRoom
