import AgentRoom.Realization

set_option autoImplicit false

/-! # Where a resume leads

`resume` rewrites the review and lets the router of the chosen node decide again. The router
still reads the counters and the plan the halted run left behind, so the resume reaches the
developer only when these allow it.
-/

namespace AgentRoom

open Transition

/-- The node a caller answers: the planner when the planner gate halted the run, and the
reviewer otherwise. -/
def Preset.resumeAt (p : Preset) (h : List Action) : AtNode :=
  if p = .plannerGate ∧ (executed h).getLast?.map StepLog.node = some .planner then .planner
  else .reviewer

/-- Every run from `c` that halts has executed the developer. -/
def RunsDeveloper (g : Graph) (c : Config) : Prop :=
  ∀ b l c', Run (Superstep g b) c l c' → c'.next = none → ∃ e ∈ l, e.node = .developer

/-- A run that halts executes the developer exactly when the developer comes first or the
run has not halted yet. -/
theorem runsDeveloper_of_next {p : Preset} {tools : List Tool} {approval : Bool} {c : Config}
    (hn : c.next = some .developer) : RunsDeveloper (p.compiled tools approval) c := by
  intro b l c' hrun hend
  cases l with
  | nil =>
      rw [hrun.nil_inv, hn] at hend
      cases hend
  | cons e l =>
      obtain ⟨c₁, ⟨w, hstep⟩, -⟩ := hrun.cons_inv
      exact ⟨e, List.mem_cons_self, Graph.node_eq_of_next hstep hn⟩

/-- A checkpoint at the end has halted without the developer. -/
theorem not_runsDeveloper_of_end {g : Graph} {c : Config} (hn : c.next = none) :
    ¬ RunsDeveloper g c := by
  intro h
  obtain ⟨e, he, -⟩ := h {} [] c (.refl c) hn
  cases he

/-- Where a resume at the reviewer goes. -/
theorem resumeReviewer_next (p : Preset) (c : Control) : (c.resumeReviewer p).next =
    if c.maxRevisions < c.revisionRound then none else some .developer := rfl

/-- Where a resume at the planner goes. -/
theorem resumePlanner_next (p : Preset) (c : Control) : (c.resumePlanner p).next =
    if p = .plannerGate ∧ c.planned = false then none else some .developer := by
  simp [Control.resumePlanner, Ledger.afterPlanner]

/-- A resume at the reviewer runs the developer while review rounds are left. -/
theorem resumeReviewer_runs_developer_iff {p : Preset} (hp : p ≠ .solo) (c : Config)
    (text : String) :
    (∃ c₁, p.graph.beginResume c (.str text) .reviewer = .ok c₁ ∧ RunsDeveloper p.graph c₁) ↔
      c.values.revisionRound ≤ c.values.maxRevisions := by
  rw [Preset.graph_eq]
  constructor
  · -- beyond the last round the router halts at once
    rintro ⟨c₁, hb, hdev⟩
    obtain ⟨-, -, -, hc₁⟩ := Preset.resumeReviewer_control hb
    by_contra hmax
    refine not_runsDeveloper_of_end ?_ hdev
    rw [← Config.control_next, hc₁, resumeReviewer_next]
    exact if_pos (Nat.not_le.mp hmax)
  · intro hle
    obtain ⟨c₁, hb⟩ := Preset.exists_resumeReviewer _ _ hp c text
    obtain ⟨-, -, -, hc₁⟩ := Preset.resumeReviewer_control hb
    refine ⟨c₁, hb, runsDeveloper_of_next ?_⟩
    rw [← Config.control_next, hc₁, resumeReviewer_next]
    exact if_neg (Nat.not_lt.mpr hle)

/-- A resume at a planner runs the developer, at a planner gate only if there is a plan. -/
theorem resumePlanner_runs_developer_iff {p : Preset} (hp : p.delivers = true) (c : Config)
    (text : String) :
    (∃ c₁, p.graph.beginResume c (.str text) .planner = .ok c₁ ∧ RunsDeveloper p.graph c₁) ↔
      (p = .plannerGate → Py.truthy c.values.plan = true) := by
  rw [Preset.graph_eq]
  constructor
  · -- a gate without a plan halts at once
    rintro ⟨c₁, hb, hdev⟩ hgate
    obtain ⟨-, -, -, hc₁⟩ := Preset.resumePlanner_control hb
    by_contra hplan
    refine not_runsDeveloper_of_end ?_ hdev
    rw [← Config.control_next, hc₁, resumePlanner_next]
    exact if_pos ⟨hgate, Bool.not_eq_true _ ▸ hplan⟩
  · intro hplan
    obtain ⟨c₁, hb⟩ := Preset.exists_resumePlanner _ _ hp c text
    obtain ⟨-, -, -, hc₁⟩ := Preset.resumePlanner_control hb
    refine ⟨c₁, hb, runsDeveloper_of_next ?_⟩
    rw [← Config.control_next, hc₁, resumePlanner_next, if_neg]
    rintro ⟨hgate, hno⟩
    rw [show c.control.planned = true from hplan hgate] at hno
    cases hno

/-- **When a resume hands control to the developer**: at the reviewer, when the review rounds
are not used up; at a planner gate, when the gate left a plan. -/
theorem resume_runs_developer_iff (p : Preset) (hp : p ≠ .solo) (h : List Action) (c : Config)
    (text : String) :
    (∃ c₁, p.graph.beginResume c (.str text) (p.resumeAt h) = .ok c₁ ∧
        RunsDeveloper p.graph c₁) ↔
      if p.resumeAt h = .planner then Py.truthy c.values.plan = true
      else c.values.revisionRound ≤ c.values.maxRevisions := by
  by_cases hgate : p = .plannerGate ∧ (executed h).getLast?.map StepLog.node = some .planner
  · have hat : p.resumeAt h = .planner := if_pos hgate
    obtain ⟨rfl, -⟩ := hgate
    rw [hat, if_pos rfl, resumePlanner_runs_developer_iff rfl]
    exact ⟨fun h => h rfl, fun h _ => h⟩
  · have hat : p.resumeAt h = .reviewer := if_neg hgate
    rw [hat, if_neg (by simp), resumeReviewer_runs_developer_iff hp]

/-- A reviewer that escalates with rounds left: the answer is worked on. -/
theorem resume_runs_developer_early :
    ∃ h c c₁, Run (ServiceStep Preset.full.graph {}) (Preset.full.graph.start "task"
        { title := "t", description := "d" }) h c ∧ c.next = none ∧
      Preset.full.graph.beginResume c (.str "use PostgreSQL") (Preset.full.resumeAt h) = .ok c₁ ∧
      RunsDeveloper Preset.full.graph c₁ := by
  have hplay : ((Preset.full.compiled Preset.builtinDevTools false).start "task"
      { title := "t", description := "d" }).control.play .full
        [.node {}, .node {}, .node { verdict := .needUserDecision }]
          = some ([.planner, .developer, .reviewer], _) := rfl
  obtain ⟨h, c, hrun, hc, -⟩ := Preset.exists_history (by decide) hplay
  rw [← Preset.graph_eq] at hrun
  have hround : c.values.revisionRound = 1 := congrArg (fun k => k.revisionRound) hc
  have hmax : c.values.maxRevisions = 2 := congrArg (fun k => k.maxRevisions) hc
  obtain ⟨c₁, hb, hdev⟩ := (resume_runs_developer_iff .full (by decide) h c
    "use PostgreSQL").mpr (by rw [if_neg (by simp [Preset.resumeAt])]; omega)
  exact ⟨h, c, c₁, hrun, congrArg Control.next hc, hb, hdev⟩

/-- A reviewer that escalates in the last round it has halts the run for good: with
`max_revisions = 0` the user's answer is never worked on. -/
theorem resume_after_last_review_halts :
    ∃ h c, Run (ServiceStep Preset.full.graph {}) (Preset.full.graph.start "task"
        { title := "t", description := "d", maxRevisions := 0 }) h c ∧
      c.next = none ∧ c.values.review.map ReviewerDecision.decision = some .needUserDecision ∧
      ¬ ∃ c₁, Preset.full.graph.beginResume c (.str "use PostgreSQL") (Preset.full.resumeAt h)
          = .ok c₁ ∧ RunsDeveloper Preset.full.graph c₁ := by
  have hplay : ((Preset.full.compiled Preset.builtinDevTools false).start "task"
      { title := "t", description := "d", maxRevisions := 0 }).control.play .full
        [.node {}, .node {}, .node { verdict := .needUserDecision }]
          = some ([.planner, .developer, .reviewer], _) := rfl
  obtain ⟨h, c, hrun, hc, -⟩ := Preset.exists_history (by decide) hplay
  rw [← Preset.graph_eq] at hrun
  refine ⟨h, c, hrun, congrArg Control.next hc, congrArg (fun k => k.review) hc, ?_⟩
  rw [show Preset.full.resumeAt h = .reviewer from if_neg (by simp),
    resumeReviewer_runs_developer_iff (by decide)]
  have hround : c.values.revisionRound = 1 := congrArg (fun k => k.revisionRound) hc
  have hmax : c.values.maxRevisions = 0 := congrArg (fun k => k.maxRevisions) hc
  omega

end AgentRoom
