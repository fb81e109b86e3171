import AgentRoom.Realization
import AgentRoom.Lib.SharedCell

set_option autoImplicit false

/-! # Two resumes of one task at the same time

`aupdate_state` reads the latest checkpoint and writes a new one computed from it, and
`ainvoke(None)` then works on a copy of its own, of which it writes a new latest checkpoint
after each superstep. Two resumes of one task are two such callers of one shared cell, and
nothing serialises them.
-/

namespace AgentRoom

open Transition SharedCell

/-- `AgentRoomService.resume(task_id, decision i)`, for a caller `i`. -/
def resuming (g : Graph) (b : Bindings) (decision : Caller → String) : Behaviour Config where
  modify i c c' := g.beginResume c (.str (decision i)) .reviewer = .ok c'
  work c c' := ∃ e, Superstep g b c e c'
  idle c := c.next = none ∨ c.interrupt.isSome

/-! ## The directives of a task -/

/-- No node writes a directive. -/
theorem NodeImpl.run_userDirectives {impl : NodeImpl} {b : Bindings} {w : World} {s : TaskState}
    {resumes : List Decision} {run : NodeRun} (h : impl.run b w s resumes = .ok run) :
    run.update.userDirectives = [] := by
  cases impl with
  | developerReact sys keys tools rounds =>
      obtain ⟨convo, events, llmInput, -, rfl⟩ := developerReact_ok h
      by_cases hc : w.message.toolCalls = [] <;> simp [developerReactUpdate, hc]
  | delivery sys keys =>
      simp only [NodeImpl.run, AgentRoom.delivery] at h
      split at h <;> cases h <;> rfl
  | approvalToolNode tools =>
      rcases approvalToolNode_ok h with ⟨call, -, rfl⟩ | ⟨answers, -, -, rfl⟩ <;> rfl
  | planner sys keys =>
      cases h
      simp only [AgentRoom.planner]
      split <;> rfl
  | plannerGate sys keys =>
      cases h
      simp only [AgentRoom.plannerGate]
      split <;> rfl
  | reviewer sys keys =>
      cases h
      simp only [AgentRoom.reviewer]
      split <;> rfl
  | reviewerTwoCall sys keys =>
      cases h
      simp only [AgentRoom.reviewerTwoCall]
      split <;> rfl
  | verifier =>
      cases h
      simp only [AgentRoom.verifier]
      split
      · split <;> rfl
      · rfl
  | supervisor sys =>
      cases h
      simp only [AgentRoom.supervisor]
  | _ =>
      cases h
      rfl

/-- A superstep keeps the directives. -/
theorem superstep_userDirectives {g : Graph} {b : Bindings} {c c' : Config} {e : StepLog}
    (h : Superstep g b c e c') : c'.values.userDirectives = c.values.userDirectives := by
  obtain ⟨w, h⟩ := h
  obtain ⟨n, impl, -, -, -, -, -, hrun, hout⟩ := Graph.superstep_inv h
  rcases hout with ⟨call, -, -, rfl⟩ | ⟨-, hafter, next, -, rfl⟩
  · rfl
  · simp [hafter, NodeImpl.run_userDirectives hrun]

theorem run_userDirectives {g : Graph} {b : Bindings} {c c' : Config} {l : List StepLog}
    (h : Run (HonestStep g b) c l c') : c'.values.userDirectives = c.values.userDirectives :=
  h.invariant (P := fun x => x.values.userDirectives = c.values.userDirectives)
    (fun _ _ _ hx hs => (superstep_userDirectives hs.2).trans hx) rfl

/-- A resume at the reviewer appends its decision. -/
theorem beginResume_userDirectives {g : Graph} {c c' : Config} {text : String}
    (h : g.beginResume c (.str text) .reviewer = .ok c') :
    c'.values.userDirectives = c.values.userDirectives ++ [text] := by
  have hvalues : c'.values = c.values.apply (reviewerResumeUpdate text) :=
    (Graph.updateState_inv h).1
  rw [hvalues]
  rfl

/-- Two resumes are, as far as the directives go, two callers that append their decision. -/
theorem resuming_run_map {g : Graph} {b : Bindings} {decision : Caller → String} {c : Config}
    {l : List Label} {s : Cell Config} (h : Run (Step (resuming g b decision)) (.start c) l s) :
    Run (Step (appending decision)) (.start c.values.userDirectives) l
      (s.map (fun c => c.values.userDirectives)) := by
  refine run_map (fun c : Config => c.values.userDirectives) ?_ ?_ ?_ h
  · intro i c c' hb
    exact beginResume_userDirectives hb
  · rintro c c' ⟨e, hstep⟩
    exact superstep_userDirectives hstep
  · intro c _
    trivial

/-! ## When both decisions are kept -/

/-- **Two concurrent resumes keep both decisions unless their schedule is a lost one.** -/
theorem concurrent_resumes_keep_both_iff {g : Graph} {b : Bindings} {decision : Caller → String}
    {c : Config} {l : List Label} {s : Cell Config}
    (hrun : Run (Step (resuming g b decision)) (.start c) l s)
    (hdone : ∀ i, s.phase i = .returned) :
    s.latest.values.userDirectives.Perm
        (c.values.userDirectives ++ [decision .first, decision .second]) ↔ ¬ Lost l := by
  refine entries_perm_iff (resuming_run_map hrun) (fun i => ?_)
  exact congrArg (Phase.map _) (hdone i)

/-! ## Two schedules of one task -/

namespace TwoResumes

/-- Two answers to one question. -/
def answers : Caller → String
  | .first => "use PostgreSQL"
  | .second => "use SQLite"

/-- The control skeleton of a task whose reviewer asks the user. -/
def asked : Control :=
  { review := some .needUserDecision, revisionRound := 1, maxRevisions := 2, planned := true
    asked := false, delivered := false, hasOracle := false, verification := none
    verifyRound := 0, maxIterations := 10, stuck := none, transcript := false, devRound := 0
    next := none }

/-- A run that halts there, with no directive so far. -/
theorem exists_asked :
    ∃ l c, Run (HonestStep (Preset.full.compiled Preset.builtinDevTools false) {})
        ((Preset.full.compiled Preset.builtinDevTools false).start "task"
          { title := "t", description := "d" }) l c ∧
      c.control = asked ∧ c.values.userDirectives = [] := by
  have hplay : ((Preset.full.compiled Preset.builtinDevTools false).start "task"
      { title := "t", description := "d" }).control.play .full
        ([{}, {}, { verdict := .needUserDecision }].map .node)
          = some ([.planner, .developer, .reviewer], asked) := rfl
  obtain ⟨l, c, hrun, hc, -⟩ := Preset.exists_honest_run (by decide) hplay
  exact ⟨l, c, hrun, hc, run_userDirectives hrun⟩

/-- A resume, and the three supersteps that complete the task again. -/
theorem exists_resumed {c : Config} {k : Control} {ns : List NodeName} (k' : Control)
    (hc : c.control = k)
    (hplay : (k.resumeReviewer .full).play .full ([{}, {}, {}].map .node) = some (ns, k'))
    (text : String) :
    ∃ c₁ l c₂, (Preset.full.compiled Preset.builtinDevTools false).beginResume c (.str text)
        .reviewer = .ok c₁ ∧
      Run (HonestStep (Preset.full.compiled Preset.builtinDevTools false) {}) c₁ l c₂ ∧
      c₂.control = k' ∧ l.map StepLog.node = ns := by
  obtain ⟨c₁, hb⟩ := Preset.exists_resumeReviewer Preset.builtinDevTools false (p := .full)
    (by decide) c text
  have hc₁ : c₁.control = k.resumeReviewer .full := by
    rw [(Preset.resumeReviewer_control hb).2.2.2, hc]
  rw [← hc₁] at hplay
  obtain ⟨l, c₂, hrun, hc₂, hnodes, -⟩ := Preset.exists_honest_run (by decide) hplay
  exact ⟨c₁, l, c₂, hb, hrun, hc₂, hnodes⟩

/-- The control skeleton after the task is completed, in its `n`-th round. -/
def completed (n : Nat) : Control :=
  { asked with
    review := some .approved, revisionRound := n, delivered := true }

/-- The behaviour of the two resumes. -/
abbrev behaviour : Behaviour Config :=
  resuming (Preset.full.compiled Preset.builtinDevTools false) {} answers

theorem behaviour_work (c : Config) (e : StepLog) (c' : Config)
    (h : HonestStep (Preset.full.compiled Preset.builtinDevTools false) {} c e c') :
    behaviour.work c c' := ⟨e, h.2⟩

/-- One after the other: the second resume starts when the first has returned. -/
theorem sequential {c : Config} (hc : c.control = asked) :
    ∃ l s, Run (Step behaviour) (.start c) l s ∧ (∀ i, s.phase i = .returned) ∧ ¬ Lost l := by
  obtain ⟨c₁, l₁, c₂, hb₁, hrun₁, hc₂, hn₁⟩ := exists_resumed (completed 2) hc rfl "use PostgreSQL"
  obtain ⟨c₃, l₂, c₄, hb₂, hrun₂, hc₄, hn₂⟩ := exists_resumed (completed 3) hc₂ rfl "use SQLite"
  have hlen₁ : l₁.length = 3 := by simpa using congrArg List.length hn₁
  have hlen₂ : l₂.length = 3 := by simpa using congrArg List.length hn₂
  obtain ⟨s, hs, hfirst, hother, hlatest⟩ := run_alone behaviour_work (i := .first) hb₁ hrun₁
    (.inl (congrArg Control.next hc₂)) (s := .start c) rfl rfl
  obtain ⟨t, ht, hsecond, hother', -⟩ := run_alone behaviour_work (i := .second) hb₂ hrun₂
    (.inl (congrArg Control.next hc₄)) hother hlatest
  rw [hlen₁] at hs
  rw [hlen₂] at ht
  refine ⟨_, t, hs.trans ht, fun i => ?_, not_lost ?_ ?_⟩
  · cases i with
    | first => exact hother'.trans hfirst
    | second => exact hsecond
  · rintro ⟨i, hi⟩
    cases i <;> revert hi <;> decide
  · intro i
    cases i <;> decide

/-- The second resume writes its decision while the first one is at work, and loads what is left
of it when the first one has returned. -/
theorem interleaved {c : Config} (hc : c.control = asked) (hdir : c.values.userDirectives = []) :
    ∃ l s, Run (Step behaviour) (.start c) l s ∧ (∀ i, s.phase i = .returned) ∧
      s.latest.values.userDirectives = ["use PostgreSQL"] := by
  obtain ⟨c₁, l₁, c₂, hb₁, hrun₁, hc₂, hn₁⟩ :=
    exists_resumed (completed 2) hc rfl "use PostgreSQL"
  obtain ⟨c₁', hb₁'⟩ := Preset.exists_resumeReviewer Preset.builtinDevTools false (p := .full)
    (by decide) c₁ "use SQLite"
  have hidle : behaviour.idle c₂ := .inl (congrArg Control.next hc₂)
  have hne : l₁ ≠ [] := by
    rintro rfl
    cases hn₁
  -- the first resume starts to work
  let s₁ := (Cell.start c).goto .first (.reading c)
  let s₂ := (s₁.store c₁).goto .first .updated
  let s₃ := s₂.goto .first (.running c₁)
  have hread : Step behaviour (.start c) (.first, .read) s₁ := .read rfl
  have hwrite : Step behaviour s₁ (.first, .write) s₂ := .write rfl hb₁
  have hload : Step behaviour s₂ (.first, .load) s₃ := .load rfl
  -- the second one writes its decision
  let s₄ := s₃.goto .second (.reading c₁)
  let s₅ := (s₄.store c₁').goto .second .updated
  have hread' : Step behaviour s₃ (.second, .read) s₄ := .read rfl
  have hwrite' : Step behaviour s₄ (.second, .write) s₅ := .write rfl hb₁'
  -- the first one saves three checkpoints without it and returns
  obtain ⟨s₆, hsaves, hfirst, hother, hlatest⟩ := run_saves behaviour_work hrun₁ (s := s₅)
    (i := .first) rfl
  let s₇ := s₆.goto .first .returned
  have hfinish : Step behaviour s₆ (.first, .finish) s₇ := .finish hfirst hidle
  -- the second one finds a completed task
  let s₈ := s₇.goto .second (.running c₂)
  have hlatest₇ : s₇.latest = c₂ := by
    rw [if_neg hne] at hlatest
    exact hlatest
  have hload' : Step behaviour s₇ (.second, .load) s₈ := by
    have hphase : s₇.phase .second = .updated := hother
    simpa only [hlatest₇] using Step.load (B := behaviour) hphase
  have hfinish' : Step behaviour s₈ (.second, .finish) (s₈.goto .second .returned) :=
    .finish rfl hidle
  have hstart := ((((Run.single hread).snoc hwrite).snoc hload).snoc hread').snoc hwrite'
  refine ⟨_, _, ((((hstart.trans hsaves).snoc hfinish).snoc hload').snoc hfinish'),
    fun i => ?_, ?_⟩
  · cases i <;> rfl
  · have hlatest' : ((s₈.goto .second .returned).latest) = c₂ := hlatest₇
    rw [hlatest', run_userDirectives hrun₁, beginResume_userDirectives hb₁, hdir]
    rfl

end TwoResumes

/-- Two resumes one after the other keep both decisions. -/
theorem concurrent_resumes_keep_both_sequential :
    ∃ c l s, c.control.review = some .needUserDecision ∧
      Run (Step TwoResumes.behaviour) (.start c) l s ∧ (∀ i, s.phase i = .returned) ∧
      s.latest.values.userDirectives.Perm
        (c.values.userDirectives ++ ["use PostgreSQL", "use SQLite"]) := by
  obtain ⟨h, c, -, hc, -⟩ := TwoResumes.exists_asked
  obtain ⟨l, s, hrun, hdone, hlost⟩ := TwoResumes.sequential hc
  refine ⟨c, l, s, by rw [hc]; rfl, hrun, hdone, ?_⟩
  exact (concurrent_resumes_keep_both_iff hrun hdone).mpr hlost

/-- The task halts with a question, two resumes answer it and return, and the second answer is
not in the task. -/
theorem concurrent_resume_lost :
    ∃ h c l s, Run (ServiceStep Preset.full.graph {}) (Preset.full.graph.start "task"
        { title := "t", description := "d" }) h c ∧
      c.values.review.map ReviewerDecision.decision = some .needUserDecision ∧
      Run (Step (resuming Preset.full.graph {} TwoResumes.answers)) (.start c) l s ∧
      (∀ i, s.phase i = .returned) ∧ s.latest.values.userDirectives = ["use PostgreSQL"] ∧
      "use SQLite" ∉ s.latest.values.userDirectives := by
  obtain ⟨h, c, hrun, hc, hdir⟩ := TwoResumes.exists_asked
  obtain ⟨l, s, hruns, hdone, hlost⟩ := TwoResumes.interleaved hc hdir
  have hhistory : Run (ServiceStep _ {}) _ _ _ := hrun.map .superstep fun _ _ _ _ hs => by
    obtain ⟨-, w, hs⟩ := hs
    exact .superstep hs
  rw [← Preset.graph_eq] at hhistory
  refine ⟨_, c, l, s, hhistory, congrArg (fun k => k.review) hc, ?_, hdone, hlost, ?_⟩
  · rw [Preset.graph_eq]
    exact hruns
  · rw [hlost]
    decide

end AgentRoom
