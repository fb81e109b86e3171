import AgentRoom.Simulation

set_option autoImplicit false

/-! # Every step of the abstract machine is taken by some world

`Choice.world` answers the calls of a node so that the node makes the given choice. A step
of the abstract machine is therefore a step of the compiled preset
(`Preset.exists_superstep`), and a play of the machine, resumes included, is a history of the
preset (`Preset.exists_history`): what the machine can do, the presets can do.
-/

namespace AgentRoom

/-- The answers that make node `n` take the choice `x`. -/
def Choice.world (x : Choice) (n : NodeName) : World :=
  { World.agreeable with
    message :=
      { content := .str (if (if n = .delivery then x.delivers else x.plans) then "done" else "")
        toolCalls := if n = .developer ∧ x.calls then [{ name := "glob", id := "call" }] else [] }
    review := { decision := x.verdict, feedback := "see above" }
    gate := { plan := if x.plans then "done" else ""
              openQuestions := if x.asks then ["which one?"] else [] }
    stuck := { action := x.action, reasoning := "stuck" }
    oracle := .exited (if x.passes then 0 else 1) "" }

/-- Every reply in the log of a node is the message `m`. -/
def NodeRun.Replies (run : NodeRun) (m : AIMessage) : Prop :=
  ∀ call ∈ run.calls, ∀ r, call.reply = some r → r = m

theorem NodeRun.Replies.nil {run : NodeRun} {m : AIMessage} (h : run.calls = []) :
    run.Replies m := by
  intro call hcall
  rw [h] at hcall
  cases hcall

theorem NodeRun.Replies.single {run : NodeRun} {call : LlmCall} {m : AIMessage}
    (h : run.calls = [call]) (hreply : call.reply = none ∨ call.reply = some m) :
    run.Replies m := by
  intro call' hcall r hr
  rw [h, List.mem_singleton] at hcall
  subst hcall
  rcases hreply with hnone | hsome
  · rw [hnone] at hr
    cases hr
  · exact Option.some.inj (hr.symm.trans hsome)

/-- Both calls of the two-call reviewer are structured ones. -/
theorem reviewerTwoCall_replies (sys : String) (keys : List ContextKey) (w : World) (s : TaskState)
    (m : AIMessage) : (reviewerTwoCall sys keys w s).interrupt = none ∧
      (reviewerTwoCall sys keys w s).Replies m := by
  have hstructured : ∀ call ∈ (reviewerTwoCall sys keys w s).calls, call.reply = none := by
    by_cases hf : focusEscalates w.focus s = true <;> simp [reviewerTwoCall, structuredCall, hf]
  refine ⟨?_, fun call hcall r hr => ?_⟩
  · by_cases hf : focusEscalates w.focus s = true <;> simp [reviewerTwoCall, hf]
  · rw [hstructured call hcall] at hr
    cases hr

namespace Preset

/-- The preset has a node of this name. -/
def hasNode (p : Preset) (n : NodeName) : Bool :=
  ((p.compiledNodes [] false).lookup n).isSome

theorem exists_impl {p : Preset} {n : NodeName} (h : p.hasNode n = true) (tools : List Tool)
    (approval : Bool) : ∃ impl, (p.compiled tools approval).impl n = some impl := by
  rcases n with _ | _ | _ | _ | _ | _ | (_ | _ | _ | _ | _ | _ | _) <;> cases p <;>
    first | exact ⟨_, rfl⟩ | cases h

/-- Every edge leads to a node the preset has. -/
theorem hasNode_step {p : Preset} {c : Control} (h : ∀ n, c.next = some n → p.hasNode n = true)
    (x : Choice) : ∀ n, (c.step p x).next = some n → p.hasNode n = true := by
  have hdev : p.hasNode .developer = true := by cases p <;> rfl
  have hgoal : ∀ n, c.next = some n → n = .verify ∨ n = .supervisor → p = .goal := by
    rintro n hn hgoal
    have hv := h n hn
    rcases hgoal with rfl | rfl <;> cases p <;> first | rfl | cases hv
  have hout := Control.outcome_step p x c
  generalize c.step p x = c' at hout ⊢
  intro m hm
  cases hout with
  | idle _ | interrupted _ _ => exact h m hm
  | planned _ | sentBack _ _ _ | toolsRan _ _ =>
      cases hm
      exact hdev
  | gated _ _ _ | lastFailure _ _ _ _ | halted _ _ | escalated _ _ | exhausted _ _ _
  | delivered _ => cases hm
  | toolCall _ hu _ =>
      cases hm
      cases p <;> first | rfl | cases hu
  -- Goal verifies next, solo is at its end, the other presets review.
  | developed _ => cases p <;> cases hm <;> rfl
  | unverified hn _ | passed hn _ _ | stuck hn _ _ _ _ | failed hn _ _ _ _ =>
      obtain rfl := hgoal _ hn (.inl rfl)
      cases hm
      rfl
  | carriedOn hn _ | replanned hn _ =>
      obtain rfl := hgoal _ hn (.inr rfl)
      cases hm
      rfl
  | approved _ _ =>
      rw [Ledger.goto_next] at hm
      split_ifs at hm with hd
      cases hm
      cases p <;> first | rfl | cases hd

/-! ## Supersteps that do not raise -/

/-- With the default bindings a developer turn completes, on the world's message. -/
theorem exists_developer_run {p : Preset} {tools : List Tool} {approval : Bool} {impl : NodeImpl}
    (himpl : (p.compiled tools approval).impl .developer = some impl) (w : World) (s : TaskState)
    (resumes : List Decision) :
    ∃ run, impl.run {} w s resumes = .ok run ∧ run.interrupt = none ∧ run.Replies w.message := by
  rcases impl_developer himpl with ⟨-, rfl⟩ | ⟨-, keys, rfl⟩
  · exact ⟨_, developerReact_default _ _ _ _ _, rfl, .single rfl (.inr rfl)⟩
  · exact ⟨_, rfl, rfl, .single rfl (.inr rfl)⟩

/-- With the default bindings every node of an ungated preset completes, on the world's
message, and its router finds the next one. -/
theorem exists_run {p : Preset} {tools : List Tool} {n : NodeName} {impl : NodeImpl}
    (himpl : (p.compiled tools false).impl n = some impl) (w : World) (s : TaskState)
    (resumes : List Decision) :
    ∃ run next, impl.run {} w s resumes = .ok run ∧ run.interrupt = none ∧
      (p.compiled tools false).route n (s.apply run.update) = .ok next ∧
      run.Replies w.message := by
  cases n with
  | planner =>
      obtain ⟨hd, ⟨rfl, rfl⟩ | ⟨hgate, rfl⟩⟩ := impl_planner himpl
      · exact ⟨_, _, rfl, rfl, route_planner _ _ _ hd, .single rfl (.inl rfl)⟩
      · exact ⟨_, _, rfl, rfl, route_planner _ _ _ hd, .single rfl (.inr rfl)⟩
  | developer =>
      obtain ⟨run, hrun, hi, hreplies⟩ := exists_developer_run himpl w s resumes
      exact ⟨run, _, hrun, hi,
        route_developer _ _ _ (devMessages_ne_nil_of_developer himpl hrun), hreplies⟩
  | verify =>
      obtain ⟨rfl, rfl⟩ := impl_verify himpl
      have hquiet : (verifier w s).interrupt = none ∧ (verifier w s).calls = [] := by
        unfold verifier
        split <;> exact ⟨rfl, rfl⟩
      exact ⟨_, _, rfl, hquiet.1, route_verify _ _ _, .nil hquiet.2⟩
  | supervisor =>
      obtain ⟨rfl, rfl⟩ := impl_supervisor himpl
      exact ⟨_, _, rfl, rfl, route_supervisor _ _ _, .single rfl (.inl rfl)⟩
  | reviewer =>
      obtain ⟨hs, ⟨rfl, rfl⟩ | ⟨-, rfl⟩⟩ := impl_reviewer himpl
      · obtain ⟨hi, hreplies⟩ := reviewerTwoCall_replies reviewerTwoCallSystem [] w s w.message
        exact ⟨_, _, rfl, hi, route_reviewer _ _ _ hs, hreplies⟩
      · exact ⟨_, _, rfl, rfl, route_reviewer _ _ _ hs, .single rfl (.inl rfl)⟩
  | delivery =>
      obtain ⟨-, rfl⟩ := impl_delivery himpl
      exact ⟨_, _, delivery_default _ _ _ _, rfl, route_delivery _ _ _, .single rfl (.inr rfl)⟩
  | tools n =>
      obtain ⟨hu, rfl, rfl⟩ := impl_tools himpl
      exact ⟨_, _, rfl, rfl, route_tools _ _ _ hu, .nil rfl⟩

/-- With the default bindings, only a call that raises stops a developer turn. -/
theorem developer_total {p : Preset} (tools : List Tool) (approval : Bool) {w : World} {c : Config}
    (hn : c.next = some .developer) (hint : c.interrupt = none) (hraises : w.raises = none) :
    ∃ e c', (p.compiled tools approval).superstep {} w c = .ok (e, c') ∧
      e.run.Replies w.message := by
  obtain ⟨impl, himpl⟩ := exists_impl (p := p) (n := .developer) (by cases p <;> rfl) tools approval
  obtain ⟨run, hrun, hi, hreplies⟩ := exists_developer_run himpl w c.values c.resumes
  exact ⟨_, _, Graph.superstep_eq hn hint hraises himpl hrun hi
    (route_developer _ _ _ (devMessages_ne_nil_of_developer himpl hrun)), hreplies⟩

/-- With the default bindings, only a call that raises stops a superstep of an ungated
preset. -/
theorem superstep_total {p : Preset} (tools : List Tool) {w : World} {c : Config} {n : NodeName}
    (hn : c.next = some n) (hnode : p.hasNode n = true) (hint : c.interrupt = none)
    (hraises : w.raises = none) :
    ∃ e c', (p.compiled tools false).superstep {} w c = .ok (e, c') ∧
      e.run.Replies w.message := by
  obtain ⟨impl, himpl⟩ := exists_impl hnode tools false
  obtain ⟨run, next, hrun, hi, hroute, hreplies⟩ := exists_run himpl w c.values c.resumes
  exact ⟨_, _, Graph.superstep_eq hn hint hraises himpl hrun hi hroute, hreplies⟩

/-! ## What each node chooses in the world of a choice -/

section Choices

variable (x : Choice) (s : TaskState) (sys : String) (keys : List ContextKey)

theorem planner_plans :
    (AgentRoom.planner sys keys (x.world .planner) s).choice.plans = x.plans := by
  by_cases ht : s.devMessages = [] <;> cases hp : x.plans <;>
    simp [NodeRun.choice, AgentRoom.planner, Choice.world, ht, hp, Py.truthy,
      Content.extractText]

theorem plannerGate_plans :
    (AgentRoom.plannerGate sys keys (x.world .planner) s).choice.plans = x.plans := by
  cases ha : x.asks <;> cases hp : x.plans <;>
    simp [NodeRun.choice, AgentRoom.plannerGate, Choice.world, ha, hp, Py.truthy]

theorem plannerGate_asks :
    (AgentRoom.plannerGate sys keys (x.world .planner) s).choice.asks = x.asks := by
  cases ha : x.asks <;> simp [NodeRun.choice, AgentRoom.plannerGate, Choice.world, ha]

theorem verifier_passes (ho : Py.truthy s.verifyCommand = true) :
    (verifier (x.world .verify) s).choice.passes = x.passes := by
  by_cases ht : s.devMessages = [] <;> cases hp : x.passes <;>
    simp [NodeRun.choice, verifier, Choice.world, ho, ht, hp, runVerifyCommand]

theorem reviewer_verdict :
    (AgentRoom.reviewer sys keys (x.world .reviewer) s).choice.verdict = x.verdict := by
  by_cases ht : s.devMessages = [] <;> cases hv : x.verdict <;>
    simp [NodeRun.choice, AgentRoom.reviewer, Choice.world, ht, hv]

end Choices

section Realized

variable {p : Preset} {tools : List Tool} {c : Config} {n : NodeName} {impl : NodeImpl}
  {x : Choice} {run : NodeRun}

/-- The scheduled node steps the machine as `x` does. -/
theorem step_choice_of_run (hp : p ≠ .twoCallReview) (hn : c.next = some n)
    (himpl : (p.compiled tools false).impl n = some impl) (hx : x.interrupts = false)
    (hrun : impl.run {} (x.world n) c.values c.resumes = .ok run) :
    c.control.step p run.choice = c.control.step p x := by
  cases n with
  -- Only the choices a node reads matter; the world of `x` answers with these.
  | planner =>
      rw [Control.step_planner hn, Control.step_planner hn]
      obtain ⟨-, ⟨rfl, rfl⟩ | ⟨hgate, rfl⟩⟩ := impl_planner himpl <;> cases hrun
      · simp only [Ledger.planner, plannerGate_plans, plannerGate_asks]
      · simp only [Ledger.planner, if_neg hgate, planner_plans]
  | developer =>
      rw [Control.step_developer hn, Control.step_developer hn]
      rcases impl_developer himpl with ⟨hu, rfl⟩ | ⟨hu, keys, rfl⟩
      · obtain ⟨convo, events, llmInput, -, rfl⟩ := developerReact_ok hrun
        simp only [NodeRun.choice, pendingCalls_developerReactUpdate]
        cases hc : x.calls <;> simp [Choice.world, hc]
      · simp only [hu, Bool.false_and]
  | verify =>
      rw [Control.step_verify hn, Control.step_verify hn]
      obtain ⟨rfl, rfl⟩ := impl_verify himpl
      cases hrun
      by_cases ho : Py.truthy c.values.verifyCommand = true
      · simp only [Ledger.verify, verifier_passes _ _ ho]
      -- Without an oracle there is no verification, whatever `x` says about the command.
      · have hoff : c.control.hasOracle = false := Bool.not_eq_true _ ▸ ho
        rw [Ledger.verify_of_not_hasOracle hoff, Ledger.verify_of_not_hasOracle hoff]
  | supervisor =>
      rw [Control.step_supervisor hn, Control.step_supervisor hn]
      obtain ⟨rfl, rfl⟩ := impl_supervisor himpl
      cases hrun
      rfl
  | reviewer =>
      rw [Control.step_reviewer hn, Control.step_reviewer hn]
      obtain ⟨-, ⟨htwo, -⟩ | ⟨-, rfl⟩⟩ := impl_reviewer himpl
      · exact absurd htwo hp
      · cases hrun
        simp only [Ledger.reviewer, reviewer_verdict, if_neg hp]
  | delivery =>
      rw [Control.step_delivery hn, Control.step_delivery hn]
      obtain ⟨-, rfl⟩ := impl_delivery himpl
      cases (delivery_default _ _ _ _).symm.trans hrun
      cases hx : x.delivers <;>
        simp [NodeRun.choice, Choice.world, hx, Py.truthy, Content.extractText, Ledger.delivery]
  | tools n =>
      rw [Control.step_tools hn, Control.step_tools hn, hx]
      obtain ⟨-, rfl, rfl⟩ := impl_tools himpl
      cases hrun
      rfl

/-- The world of an honest choice calls the tools a call has bound only. -/
theorem honest_of_run (hn : c.next = some n)
    (himpl : (p.compiled tools false).impl n = some impl) (hhonest : c.control.Honest p x)
    (hrun : impl.run {} (x.world n) c.values c.resumes = .ok run) : run.Honest := by
  obtain ⟨run', -, hrun', -, -, hreplies⟩ := exists_run himpl (x.world n) c.values c.resumes
  cases hrun'.symm.trans hrun
  intro call hcall hunbound m hm
  rw [hreplies call hcall m hm]
  by_cases hcalls : n = .developer ∧ x.calls = true
  · obtain ⟨rfl, hc⟩ := hcalls
    obtain ⟨hu, hlt⟩ := hhonest hn hc
    rcases impl_developer himpl with ⟨-, rfl⟩ | ⟨hplain, -⟩
    · -- the budget is not used up, so the call has its tools bound
      obtain ⟨convo, events, llmInput, -, rfl⟩ := developerReact_ok hrun
      rw [List.mem_singleton.mp hcall] at hunbound
      exact absurd hlt (of_decide_eq_false hunbound)
    · rw [hu] at hplain
      cases hplain
  · simp [Choice.world, hcalls]

/-- A verification passes by choice. -/
theorem passes_of_run (himpl : (p.compiled tools false).impl .verify = some impl)
    (hrun : impl.run {} (x.world .verify) c.values c.resumes = .ok run)
    (hpass : run.choice.passes = true) : x.passes = true := by
  obtain ⟨rfl, rfl⟩ := impl_verify himpl
  cases hrun
  by_cases ho : Py.truthy c.values.verifyCommand = true
  · rwa [verifier_passes _ _ ho] at hpass
  · simp [NodeRun.choice, verifier, ho] at hpass

/-- **Realization.** From a checkpoint without a pending interrupt, an ungated preset takes
every step of the machine, with an honest model if the machine's step is honest. -/
theorem exists_superstep (hp : p ≠ .twoCallReview) (hn : c.next = some n)
    (hint : c.interrupt = none) (himpl : (p.compiled tools false).impl n = some impl)
    (hx : x.interrupts = false) (hhonest : c.control.Honest p x) :
    ∃ e c', HonestStep (p.compiled tools false) {} c e c' ∧ e.node = n ∧
      c'.control = c.control.step p x ∧
      (e.node = .verify → e.run.choice.passes = true → x.passes = true) := by
  obtain ⟨run, next, hrun, hi, hroute, -⟩ := exists_run himpl (x.world n) c.values c.resumes
  have hstep := Graph.superstep_eq hn hint rfl himpl hrun hi hroute
  refine ⟨_, _, ⟨honest_of_run hn himpl hhonest hrun, _, hstep⟩, rfl, ?_, ?_⟩
  · exact (superstep_control hstep).trans (step_choice_of_run hp hn himpl hx hrun)
  · rintro rfl hpass
    exact passes_of_run himpl hrun hpass

end Realized

/-- A resume at the reviewer goes through on every preset that has one. -/
theorem exists_resumeReviewer {p : Preset} (tools : List Tool) (approval : Bool) (hp : p ≠ .solo)
    (c : Config) (text : String) :
    ∃ c', (p.compiled tools approval).beginResume c (.str text) .reviewer = .ok c' := by
  obtain ⟨impl, himpl⟩ := exists_impl_reviewer tools approval hp
  simp only [Graph.beginResume, Graph.updateState, himpl, route_reviewer _ _ _ hp, bind,
    Except.bind]
  exact ⟨_, rfl⟩

/-- A resume at the reviewer that schedules the developer goes on with its turn. -/
theorem exists_resumed_turn {p : Preset} (tools : List Tool) (approval : Bool) (hp : p ≠ .solo)
    (c : Config) (text : String) (hback : (c.control.resumeReviewer p).next = some .developer) :
    ∃ c₁ turn c₂, (p.compiled tools approval).beginResume c (.str text) .reviewer = .ok c₁ ∧
      (p.compiled tools approval).superstep {} .agreeable c₁ = .ok (turn, c₂) ∧
      turn.node = .developer := by
  obtain ⟨c₁, hbegin⟩ := exists_resumeReviewer tools approval hp c text
  obtain ⟨-, -, -, hc₁⟩ := resumeReviewer_control hbegin
  have hnext : c₁.next = some .developer := by
    rw [← Config.control_next, hc₁, hback]
  have hawake : c₁.interrupt = none := Config.interrupt_eq_none (by rw [hc₁]; rfl)
  obtain ⟨turn, c₂, hturn, -⟩ := developer_total (w := .agreeable) tools approval hnext hawake rfl
  exact ⟨c₁, turn, c₂, hbegin, hturn, Graph.node_eq_of_next hturn hnext⟩

/-- A resume at the planner goes through on every preset that has one. -/
theorem exists_resumePlanner {p : Preset} (tools : List Tool) (approval : Bool)
    (hp : p.delivers = true) (c : Config) (text : String) :
    ∃ c', (p.compiled tools approval).beginResume c (.str text) .planner = .ok c' := by
  obtain ⟨impl, himpl⟩ := exists_impl_planner tools approval hp
  simp only [Graph.beginResume, Graph.updateState, himpl, route_planner _ _ _ hp, bind,
    Except.bind]
  exact ⟨_, rfl⟩

end Preset

/-! ## Plays of the machine -/

/-- One move of a play: a node that makes a choice, or the start of a resume. -/
inductive Move
  | node (x : Choice)
  | resumeReviewer (text : String)
  | resumePlanner (text : String)

namespace Control

instance (p : Preset) (x : Choice) (c : Control) : Decidable (c.Honest p x) :=
  inferInstanceAs (Decidable (_ → _))

/-- The nodes a move executes, and the state it leads to. -/
def move (p : Preset) (c : Control) : Move → Option (List NodeName × Control)
  | .node x =>
      match c.next with
      | none => none
      | some n =>
          if p.hasNode n = true ∧ c.interrupted = false ∧ x.interrupts = false ∧ c.Honest p x then
            some ([n], c.step p x)
          else none
  | .resumeReviewer _ => if p ≠ .solo then some ([], c.resumeReviewer p) else none
  | .resumePlanner _ => if p.delivers then some ([], c.resumePlanner p) else none

/-- The nodes a sequence of moves executes, and the state it leads to. -/
def play (p : Preset) (c : Control) : List Move → Option (List NodeName × Control)
  | [] => some ([], c)
  | m :: ms =>
      match c.move p m with
      | none => none
      | some (ns, c') => (c'.play p ms).map (fun r => (ns ++ r.1, r.2))

theorem play_append {p : Preset} {c c' : Control} {ms ms' : List Move} {ns : List NodeName}
    (h : c.play p ms = some (ns, c')) :
    c.play p (ms ++ ms') = (c'.play p ms').map (fun r => (ns ++ r.1, r.2)) := by
  induction ms generalizing c ns with
  | nil =>
      cases h
      simp
  | cons m ms ih =>
      simp only [play, List.cons_append] at h ⊢
      split at h
      · cases h
      · rename_i ns₁ c₁ hm
        obtain ⟨⟨ns₂, c₂⟩, h₂, heq⟩ := Option.map_eq_some_iff.mp h
        cases heq
        rw [ih h₂, Option.map_map]
        simp [Function.comp_def, List.append_assoc]

/-- The machine can take `n` supersteps from `c` to `c'`. -/
def PlaysFor (p : Preset) (c : Control) (n : Nat) (c' : Control) : Prop :=
  ∃ (xs : List Choice) (ns : List NodeName),
    c.play p (xs.map .node) = some (ns, c') ∧ ns.length = n

theorem PlaysFor.trans {p : Preset} {c c' c'' : Control} {n m : Nat} (h : c.PlaysFor p n c')
    (h' : c'.PlaysFor p m c'') : c.PlaysFor p (n + m) c'' := by
  obtain ⟨xs, ns, hplay, hlen⟩ := h
  obtain ⟨ys, ms, hplay', hlen'⟩ := h'
  refine ⟨xs ++ ys, ns ++ ms, ?_, by simp [hlen, hlen']⟩
  rw [List.map_append, play_append hplay, hplay']
  rfl

/-- One superstep: the scheduled node exists and its choice is an honest one. -/
theorem PlaysFor.one {p : Preset} {c : Control} {n : NodeName} {x : Choice}
    (hn : c.next = some n) (hnode : p.hasNode n = true) (hint : c.interrupted = false)
    (hx : x.interrupts = false) (hhonest : c.Honest p x) : c.PlaysFor p 1 (c.step p x) := by
  refine ⟨[x], [n], ?_, rfl⟩
  have hm : c.move p (.node x) = some ([n], c.step p x) := by
    simp only [move, hn]
    exact if_pos ⟨hnode, hint, hx, hhonest⟩
  simp [play, hm]

end Control

namespace Preset

/-- A node's move is a superstep of an honest model. -/
theorem exists_node_step {p : Preset} {tools : List Tool} (hp : p ≠ .twoCallReview) {x : Choice}
    {c : Config} {ns : List NodeName} {k : Control}
    (hm : c.control.move p (.node x) = some (ns, k)) :
    ∃ e c', HonestStep (p.compiled tools false) {} c e c' ∧ c'.control = k ∧ [e.node] = ns ∧
      (e.node = .verify → e.run.choice.passes = true → x.passes = true) := by
  simp only [Control.move] at hm
  split at hm
  · cases hm
  · rename_i n hn
    split_ifs at hm with hcond
    obtain ⟨hnode, hint, hx, hhonest⟩ := hcond
    cases hm
    obtain ⟨impl, himpl⟩ := exists_impl hnode tools false
    have hint' : c.interrupt = none := by simpa [Config.control] using hint
    obtain ⟨e, c', hstep, he, hc', hpass⟩ := exists_superstep hp hn hint' himpl hx hhonest
    exact ⟨e, c', hstep, hc', by rw [he], hpass⟩

/-- A play without resumes is a run, and its verifications pass only by choice. -/
theorem exists_honest_run {p : Preset} {tools : List Tool} (hp : p ≠ .twoCallReview)
    {xs : List Choice} {c : Config} {ns : List NodeName} {k : Control}
    (hplay : c.control.play p (xs.map .node) = some (ns, k)) :
    ∃ l c', Transition.Run (HonestStep (p.compiled tools false) {}) c l c' ∧ c'.control = k ∧
      l.map StepLog.node = ns ∧
      ∀ e ∈ l, e.node = .verify → e.run.choice.passes = true → ∃ x ∈ xs, x.passes = true := by
  induction xs generalizing c ns with
  | nil =>
      cases hplay
      exact ⟨[], c, .refl c, rfl, rfl, by simp⟩
  | cons x xs ih =>
      simp only [List.map_cons, Control.play] at hplay
      split at hplay
      · cases hplay
      · rename_i ns₁ c₁ hm
        obtain ⟨⟨ns₂, k⟩, hrest, heq⟩ := Option.map_eq_some_iff.mp hplay
        cases heq
        obtain ⟨e, c', hstep, rfl, rfl, hpass⟩ := exists_node_step hp hm
        obtain ⟨l, c'', hrun, hk, rfl, hpasses⟩ := ih hrest
        refine ⟨e :: l, c'', hrun.cons hstep, hk, rfl, fun e' he' hv hp' => ?_⟩
        rcases List.mem_cons.mp he' with rfl | he'
        · exact ⟨x, List.mem_cons_self, hpass hv hp'⟩
        · obtain ⟨y, hy, hpy⟩ := hpasses e' he' hv hp'
          exact ⟨y, List.mem_cons_of_mem _ hy, hpy⟩

/-- **Plays are histories.** -/
theorem exists_history {p : Preset} {tools : List Tool} (hp : p ≠ .twoCallReview)
    {ms : List Move} {c : Config} {ns : List NodeName} {k : Control}
    (hplay : c.control.play p ms = some (ns, k)) :
    ∃ h c', Transition.Run (ServiceStep (p.compiled tools false) {}) c h c' ∧ c'.control = k ∧
      (executed h).map StepLog.node = ns := by
  induction ms generalizing c ns with
  | nil =>
      cases hplay
      exact ⟨[], c, .refl c, rfl, rfl⟩
  | cons m ms ih =>
      simp only [Control.play] at hplay
      split at hplay
      · cases hplay
      · rename_i ns₁ c₁ hm
        obtain ⟨⟨ns₂, k⟩, hrest, heq⟩ := Option.map_eq_some_iff.mp hplay
        cases heq
        -- one step of the history for the move, with the state the machine computes
        have hone : ∃ a c', ServiceStep (p.compiled tools false) {} c a c' ∧
            c'.control = c₁ ∧ (executed [a]).map StepLog.node = ns₁ := by
          cases m with
          | node x =>
              obtain ⟨e, c', ⟨-, w, hstep⟩, hc', he, -⟩ := exists_node_step hp hm
              exact ⟨_, c', .superstep hstep, hc', he⟩
          | resumeReviewer text =>
              simp only [Control.move] at hm
              split_ifs at hm with hs
              cases hm
              obtain ⟨c', hb⟩ := exists_resumeReviewer tools false hs c text
              exact ⟨_, c', .resume (by simp) hb, (resumeReviewer_control hb).2.2.2, rfl⟩
          | resumePlanner text =>
              simp only [Control.move] at hm
              split_ifs at hm with hd
              cases hm
              obtain ⟨c', hb⟩ := exists_resumePlanner tools false hd c text
              exact ⟨_, c', .resume (by simp) hb, (resumePlanner_control hb).2.2.2, rfl⟩
        obtain ⟨a, c', hstep, rfl, hns₁⟩ := hone
        obtain ⟨h, c'', hrun, hk, hns₂⟩ := ih hrest
        refine ⟨a :: h, c'', hrun.cons hstep, hk, ?_⟩
        rw [← List.singleton_append, executed_append, List.map_append, hns₁, hns₂]

end Preset

end AgentRoom
