import AgentRoom.Variants
import AgentRoom.Properties.Directives

set_option autoImplicit false

/-! # Does new feedback reach the tool-using developer?

The tool-using developer goes on with its transcript, so a node that hands over to it again
has to append what is new and grant a fresh tool budget. The planner, the reviewer and the
verifier do; the registered variants of the planner and the reviewer do not.
-/

namespace AgentRoom

open Transition

/-- `isinstance(m, AIMessage)`. -/
def Message.isAi : Message → Bool
  | .ai _ => true
  | _ => false

/-- The messages after the developer's last reply. -/
def TaskState.sinceReply (s : TaskState) : List Message :=
  (s.devMessages.reverse.takeWhile (fun m => !m.isAi)).reverse

/-- The developer is told the news, in one message after its last reply, on a fresh budget. -/
def TaskState.Informed (s : TaskState) (news : List String) : Prop :=
  s.devRound = 0 ∧ ∃ text, .human text ∈ s.sinceReply ∧ ∀ x ∈ news, Py.Contains text x

/-- What a node that hands over to the developer has found: the feedback with its issues, the
output of the failed verification, or the plan. -/
def news (n : NodeName) (s : TaskState) : List String :=
  match n with
  | .reviewer => s.review.toList.flatMap (fun review => review.feedback :: review.issues)
  | .verify | .supervisor => s.verification.toList.map VerificationResult.outputTail
  | .planner => s.plan.toList
  | _ => []

/-- A superstep in which control returns to the developer: from the reviewer, the verifier or the
supervisor, or from the planner when the developer has been at work before. -/
def Returns (c : Config) (e : StepLog) (c' : Config) : Prop :=
  c'.next = some .developer ∧ (e.node = .reviewer ∨ e.node = .verify ∨ e.node = .supervisor ∨
    e.node = .planner ∧ c.values.devMessages ≠ [])

/-! ## After the last reply -/

theorem sinceReply_eq {s : TaskState} {front back : List Message} {m : AIMessage}
    (h : s.devMessages = front ++ [.ai m] ++ back) (hback : ∀ x ∈ back, x.isAi = false) :
    s.sinceReply = back := by
  have hall : ∀ x ∈ back.reverse, (!x.isAi) = true := by
    intro x hx
    rw [hback x (List.mem_reverse.mp hx)]
    rfl
  unfold TaskState.sinceReply
  rw [h, List.reverse_append, List.takeWhile_append_of_pos hall]
  simp [Message.isAi]

/-- A note since the reply that has the news. -/
theorem TaskState.Informed.of_note {s : TaskState} {front back : List Message} {m : AIMessage}
    {text : String} {xs : List String} (hround : s.devRound = 0)
    (h : s.devMessages = front ++ [.ai m] ++ back) (hback : ∀ x ∈ back, x.isAi = false)
    (hmem : .human text ∈ back) (hxs : ∀ x ∈ xs, Py.Contains text x) : s.Informed xs := by
  refine ⟨hround, text, ?_, hxs⟩
  rw [sinceReply_eq h hback]
  exact hmem

/-- The reply is the last message. -/
theorem TaskState.endsWithReply.exists_front {s : TaskState} (h : s.endsWithReply) :
    ∃ front m, s.devMessages = front ++ [.ai m] := by
  obtain ⟨m, hm⟩ := h
  obtain ⟨front, hfront⟩ := List.getLast?_eq_some_iff.mp hm
  exact ⟨front, m, hfront⟩

/-- Nobody is told anything by the reply itself. -/
theorem TaskState.endsWithReply.not_informed {s : TaskState} (h : s.endsWithReply)
    (xs : List String) : ¬ s.Informed xs := by
  obtain ⟨front, m, hfront⟩ := h.exists_front
  rintro ⟨-, text, hmem, -⟩
  have hlast : s.devMessages = front ++ [.ai m] ++ [] := by simpa using hfront
  rw [sinceReply_eq hlast (by simp)] at hmem
  cases hmem

/-! ## What the messages carry -/

theorem contains_feedbackBlock (review : ReviewerDecision) (roundNo : Nat) :
    ∀ x ∈ review.feedback :: review.issues,
      Py.Contains (renderReviewFeedbackBlock review roundNo) x := by
  intro x hx
  have hblock : renderReviewFeedbackBlock review roundNo =
      "# Reviewer feedback (round " ++ toString roundNo ++ ")\n" ++ review.feedback ++
        "\n\n## Issues\n" ++
        (if bullets review.issues = "" then "(see feedback)" else bullets review.issues) := by
    simp [renderReviewFeedbackBlock, Py.truthy]
  rw [hblock]
  rcases List.mem_cons.mp hx with rfl | hx
  · exact Py.contains_append_left _ (Py.contains_append_left _
      (Py.contains_append_right _ (.refl _)))
  · have hbullet : Py.Contains (bullets review.issues) ("- " ++ x) :=
      Py.contains_join (List.mem_map_of_mem hx)
    have hne : bullets review.issues ≠ "" := by
      intro hempty
      rw [hempty] at hbullet
      have hlen := hbullet.length_le
      simp at hlen
    rw [if_neg hne]
    exact Py.contains_append_right _ (hbullet.trans (Py.contains_append_right _ (.refl _)))

theorem contains_verificationFailed (v : VerificationResult) (roundNo : Nat) :
    ∃ text, verificationFailedMessage v roundNo = .human text ∧ Py.Contains text v.outputTail :=
  ⟨_, rfl, Py.contains_append_left _ (Py.contains_append_right _ (.refl _))⟩

/-! ## What each node leaves for the developer -/

/-- The verification failed and the developer has been told so. -/
def TaskState.Failed (s : TaskState) : Prop :=
  s.devRound = 0 ∧ ∃ front m v roundNo, s.verification = some v ∧
    s.devMessages = front ++ [.ai m] ++ [verificationFailedMessage v roundNo]

section Nodes

variable {s : TaskState} {sys : String} {keys : List ContextKey} {w : World}

theorem TaskState.Failed.ne_nil (h : s.Failed) : s.devMessages ≠ [] := by
  obtain ⟨-, front, m, v, roundNo, -, hmsgs⟩ := h
  simp [hmsgs]

/-- What keeps the transcript, the budget and the verification keeps the failure. -/
theorem TaskState.Failed.apply (h : s.Failed) {u : Update} (hmsgs : u.devMessages = [])
    (hround : u.devRound = none) (hv : u.verification = none) : (s.apply u).Failed := by
  obtain ⟨hround', front, m, v, roundNo, hv', hmsgs'⟩ := h
  refine ⟨by simp [hround, hround'], front, m, v, roundNo, by simp [hv, hv'], ?_⟩
  rw [TaskState.apply_devMessages, hmsgs, List.append_nil, hmsgs']

/-- The failure's output has been told. -/
theorem TaskState.Failed.informed (h : s.Failed) {n : NodeName}
    (hn : n = .verify ∨ n = .supervisor) : s.Informed (news n s) := by
  obtain ⟨hround, front, m, v, roundNo, hv, hmsgs⟩ := h
  obtain ⟨text, htext, hcontains⟩ := contains_verificationFailed v roundNo
  rw [htext] at hmsgs
  refine .of_note hround hmsgs (by simp [Message.isAi]) (List.mem_singleton.mpr rfl) ?_
  rcases hn with rfl | rfl <;> simpa [news, hv] using hcontains

/-- What a failed verification leaves. -/
theorem failed_verifier (hreply : s.endsWithReply) (ho : Py.truthy s.verifyCommand = true)
    (hfail : (runVerifyCommand w.oracle (s.verifyRound + 1)).passed = false) :
    (s.apply (verifier w s).update).Failed := by
  obtain ⟨front, m, hfront⟩ := hreply.exists_front
  have hne : s.devMessages ≠ [] := hreply.ne_nil
  refine ⟨by simp [verifier, ho, hfail, hne], front, m,
    runVerifyCommand w.oracle (s.verifyRound + 1), s.verifyRound + 1, ?_, ?_⟩
  · simp [verifier, ho, hfail, hne]
  · rw [← hfront]
    simp [verifier, ho, hfail, hne]

/-- A verification that is recorded as failed has been told. -/
theorem failed_of_verification (hreply : s.endsWithReply)
    (hv : (s.apply (verifier w s).update).ledger.verification = some false) :
    (s.apply (verifier w s).update).Failed := by
  refine failed_verifier hreply ?_ ?_
  · by_contra ho
    simp [TaskState.ledger, verifier, ho] at hv
  · by_contra hpass
    by_cases ho : Py.truthy s.verifyCommand = true <;>
      simp [TaskState.ledger, verifier, ho, hpass] at hv

/-- The reviewer tells its feedback. -/
theorem informed_reviewer (hreply : s.endsWithReply) (hd : w.review.decision = .revisionRequired) :
    (s.apply (reviewer sys keys w s).update).Informed
      (news .reviewer (s.apply (reviewer sys keys w s).update)) := by
  obtain ⟨front, m, hfront⟩ := hreply.exists_front
  have hne : s.devMessages ≠ [] := hreply.ne_nil
  have hmsgs : (s.apply (reviewer sys keys w s).update).devMessages = front ++ [.ai m] ++
      [.human (renderReviewFeedbackBlock w.review s.revisionRound)] := by
    rw [← hfront]
    simp [reviewer, hd, hne]
  refine .of_note (by simp [reviewer, hd, hne]) hmsgs (by simp [Message.isAi])
    (List.mem_singleton.mpr rfl) ?_
  have hnews : news .reviewer (s.apply (reviewer sys keys w s).update)
      = w.review.feedback :: w.review.issues := by
    simp [news, reviewer, hd, hne]
  rw [hnews]
  exact contains_feedbackBlock _ _

/-- The two-call reviewer tells nothing. -/
theorem not_informed_reviewerTwoCall (hreply : s.endsWithReply) (xs : List String) :
    ¬ (s.apply (reviewerTwoCall sys keys w s).update).Informed xs := by
  refine (hreply.apply ?_).not_informed xs
  by_cases hf : focusEscalates w.focus s = true <;> simp [reviewerTwoCall, hf]

/-- The planner tells its plan. -/
theorem informed_planner (h : s.Failed) :
    (s.apply (planner sys keys w s).update).Informed
      (news .planner (s.apply (planner sys keys w s).update)) := by
  have hne : s.devMessages ≠ [] := h.ne_nil
  obtain ⟨-, front, m, v, roundNo, -, hmsgs⟩ := h
  have hplan : (s.apply (planner sys keys w s).update).plan =
      some w.message.content.extractText := by
    simp [planner, hne]
  have hmsgs' : (s.apply (planner sys keys w s).update).devMessages = front ++ [.ai m] ++
      [verificationFailedMessage v roundNo,
        .human ("# Revised plan\n" ++ w.message.content.extractText)] := by
    rw [TaskState.apply_devMessages, hmsgs]
    simp [planner, hne]
  refine .of_note (by simp [planner, hne]) hmsgs' ?_ (List.mem_cons_of_mem _ List.mem_cons_self) ?_
  · simp [verificationFailedMessage, Message.isAi]
  · rw [news, hplan]
    intro x hx
    rw [List.mem_singleton.mp hx]
    exact Py.contains_append_right _ (.refl _)

/-- The gate tells nothing, so the plan is there only if the failure's message has it. -/
theorem informed_plannerGate_iff (h : s.Failed) :
    (s.apply (plannerGate sys keys w s).update).Informed
        (news .planner (s.apply (plannerGate sys keys w s).update)) ↔
      ∃ text, .human text ∈ s.sinceReply ∧ Py.Contains text w.gate.plan := by
  have hround : (s.apply (plannerGate sys keys w s).update).devRound = s.devRound := by
    by_cases hq : w.gate.openQuestions = [] <;> simp [plannerGate, hq]
  have hmsgs : (s.apply (plannerGate sys keys w s).update).devMessages = s.devMessages := by
    by_cases hq : w.gate.openQuestions = [] <;> simp [plannerGate, hq]
  have hplan : (s.apply (plannerGate sys keys w s).update).plan = some w.gate.plan := by
    by_cases hq : w.gate.openQuestions = [] <;> simp [plannerGate, hq]
  simp only [TaskState.Informed, TaskState.sinceReply, hround, hmsgs, news, hplan, h.1, true_and]
  simp

end Nodes

/-! ## Where the run hands over -/

/-- **The invariant**: the reviewer and the verifier find the developer's reply at the end of the
transcript, the supervisor and a planner that plans again find a failure that has been told. -/
structure Config.HandsOver (c : Config) : Prop where
  reply : c.next = some .reviewer ∨ c.next = some .verify → c.values.endsWithReply
  failed : c.next = some .supervisor → c.values.Failed
  replan : c.next = some .planner → c.values.devMessages = [] ∨ c.values.Failed

/-- What is scheduled needs nothing. -/
theorem Config.HandsOver.of_next {c : Config} (h : c.next = none ∨ c.next = some .developer ∨
    c.next = some .delivery ∨ ∃ m, c.next = some (.tools m)) : c.HandsOver := by
  rcases h with h | h | h | ⟨m, h⟩ <;> constructor <;> rw [h] <;> simp

/-- The invariant is about the state and the node that is scheduled. -/
theorem Config.HandsOver.congr {c c' : Config} (h : c.HandsOver) (hvalues : c'.values = c.values)
    (hnext : c'.next = c.next) : c'.HandsOver := by
  constructor <;> rw [hnext, hvalues]
  · exact h.reply
  · exact h.failed
  · exact h.replan

namespace Preset

variable {p : Preset} {v₁ v₂ : Option Variant} {tools : List Tool} {approval : Bool}
  {b : Bindings} {c c' : Config}

/-- Where the reviewer of a tool-using preset hands over. -/
theorem afterReview_cases (hu : p.usesTools = true) (l : Ledger) :
    l.afterReview p = some .developer ∧ l.review = some .revisionRequired ∨
      l.afterReview p = some .delivery ∨ l.afterReview p = none := by
  unfold Ledger.afterReview
  split
  · simp [delivers_of_usesTools hu]
  · rename_i hr
    split <;> simp [hr]
  · simp

theorem review_of_afterReview (hu : p.usesTools = true) {l : Ledger}
    (h : l.afterReview p = some .developer) : l.review = some .revisionRequired := by
  rcases afterReview_cases hu l with ⟨-, hrev⟩ | hr | hr
  · exact hrev
  · rw [h] at hr
    cases hr
  · rw [h] at hr
    cases hr

theorem verification_of_afterVerify {l : Ledger} (h : l.afterVerify = some .developer) :
    l.verification = some false := by
  unfold Ledger.afterVerify at h
  split at h
  · cases h
  · cases h
  · assumption

/-- A superstep with the scheduled node, its run and the way out. -/
theorem compiledWith_superstep (hu : p.usesTools = true) {w : World} {e : StepLog}
    (h : (p.compiledWith v₁ v₂ tools approval).superstep b w c = .ok (e, c')) :
    ∃ n impl, c.next = some n ∧ e.node = n ∧ impl.run b w c.values c.resumes = .ok e.run ∧
      (if n = .planner then impl = plannerImpl v₁
        else if n = .reviewer then impl = reviewerImpl v₂
        else (p.compiled tools approval).impl n = some impl) ∧
      (c'.values = c.values ∧ c'.next = c.next ∨
        c'.values = c.values.apply e.run.update ∧
          (p.compiled tools approval).route n c'.values = .ok c'.next) := by
  obtain ⟨n, impl, hn, -, -, himpl, he, hrun, hout⟩ := Graph.superstep_inv h
  refine ⟨n, impl, hn, he, hrun, ?_, ?_⟩
  · rw [compiledWith_impl hu] at himpl
    split_ifs at himpl ⊢
    · exact (Option.some.inj himpl).symm
    · exact (Option.some.inj himpl).symm
    · exact himpl
  · rcases hout with ⟨call, -, -, rfl⟩ | ⟨-, hafter, next, hroute, rfl⟩
    · exact .inl ⟨rfl, rfl⟩
    · exact .inr ⟨hafter, hroute⟩

/-- The reviewer leaves nothing to be kept. -/
theorem handsOver_of_reviewer (hu : p.usesTools = true)
    (hroute : (p.compiled tools approval).route .reviewer c.values = .ok c.next) :
    c.HandsOver := by
  rw [route_reviewer _ _ _ (ne_solo_of_usesTools hu), Except.ok.injEq] at hroute
  rcases afterReview_cases hu c.values.ledger with ⟨hr, -⟩ | hr | hr <;> rw [hr] at hroute
  · exact .of_next (.inr (.inl hroute.symm))
  · exact .of_next (.inr (.inr (.inl hroute.symm)))
  · exact .of_next (.inl hroute.symm)

/-- Nor does the planner. -/
theorem handsOver_of_planner (hu : p.usesTools = true)
    (hroute : (p.compiled tools approval).route .planner c.values = .ok c.next) :
    c.HandsOver := by
  rw [route_planner _ _ _ (delivers_of_usesTools hu),
    Ledger.afterPlanner_of_ne (ne_plannerGate_of_usesTools hu), Except.ok.injEq] at hroute
  exact .of_next (.inr (.inl hroute.symm))

/-- The developer leaves its reply. -/
theorem handsOver_of_developer (hreply : c.values.endsWithReply)
    (hroute : (p.compiled tools approval).route .developer c.values = .ok c.next) :
    c.HandsOver := by
  have hsome : p.usesTools = true → c.values.devMessages ≠ [] := by
    rintro - hnil
    obtain ⟨m, hm⟩ := hreply
    rw [hnil] at hm
    cases hm
  rw [route_developer _ _ _ hsome, Except.ok.injEq] at hroute
  refine ⟨fun _ => hreply, fun hs => ?_, fun hs => ?_⟩ <;> rw [hs] at hroute <;>
    split_ifs at hroute <;> cases p <;> simp [afterDeveloper] at hroute

/-- The verifier leaves the reply when the task passes, and tells the failure when it does not. -/
theorem handsOver_of_verify {w : World} {s : TaskState} (hreply : s.endsWithReply)
    (hvalues : c.values = s.apply (verifier w s).update)
    (hroute : (goal.compiled tools approval).route .verify c.values = .ok c.next) :
    c.HandsOver := by
  rw [route_verify, Except.ok.injEq] at hroute
  by_cases ho : Py.truthy s.verifyCommand = true
  · cases hpass : (runVerifyCommand w.oracle (s.verifyRound + 1)).passed with
    | true =>
        have hv : c.values.ledger.verification = some true := by
          rw [hvalues]
          simp [TaskState.ledger, verifier, ho, hpass]
        rw [Ledger.afterVerify, hv] at hroute
        exact .of_next (.inr (.inr (.inl hroute.symm)))
    | false =>
        have hfailed : c.values.Failed := by
          rw [hvalues]
          exact failed_verifier hreply ho hpass
        have hv : c.values.ledger.verification = some false := by
          rw [hvalues]
          simp [TaskState.ledger, verifier, ho, hpass, hreply.ne_nil]
        refine ⟨fun hs => ?_, fun _ => hfailed, fun _ => .inr hfailed⟩
        rw [Ledger.afterVerify, hv] at hroute
        rcases hs with hs | hs <;> rw [hs] at hroute <;> dsimp only at hroute <;>
          split_ifs at hroute <;> cases hroute
  · -- without an oracle the verifier says nothing and the reviewer is next
    have hoff : Py.truthy s.verifyCommand = false := by simpa using ho
    have hquiet : c.values.endsWithReply := by
      rw [hvalues]
      exact hreply.apply (verifier_devMessages_of_not_hasOracle w hoff)
    have hv : c.values.ledger.verification = none := by
      rw [hvalues]
      simp [TaskState.ledger, verifier, ho]
    rw [Ledger.afterVerify, hv] at hroute
    refine ⟨fun _ => hquiet, fun hs => ?_, fun hs => ?_⟩ <;> rw [hs] at hroute <;>
      cases hroute

/-- The supervisor's update leaves a failure as it was told. -/
theorem failed_supervisor {w : World} {s : TaskState} (hfailed : s.Failed) :
    (s.apply (supervisor supervisorSystem w s).update).Failed :=
  hfailed.apply (by simp [supervisor]) (by simp [supervisor]) (by simp [supervisor])

theorem handsOver_of_supervisor (hfailed : c.values.Failed)
    (hroute : (goal.compiled tools approval).route .supervisor c.values = .ok c.next) :
    c.HandsOver := by
  rw [route_supervisor, Except.ok.injEq] at hroute
  refine ⟨fun hs => ?_, fun _ => hfailed, fun _ => .inr hfailed⟩
  rcases hs with hs | hs <;> rw [hs] at hroute <;> unfold Ledger.afterSupervisor at hroute <;>
    split at hroute <;> cases hroute

theorem handsOver_superstep (hu : p.usesTools = true) {w : World} {e : StepLog}
    (hc : c.HandsOver)
    (h : (p.compiledWith v₁ v₂ tools approval).superstep b w c = .ok (e, c')) :
    c'.HandsOver := by
  obtain ⟨n, impl, hn, -, hrun, himpl, ⟨hvalues, hnext⟩ | ⟨hvalues, hroute⟩⟩ :=
    compiledWith_superstep hu h
  · exact hc.congr hvalues hnext
  · cases n with
    | planner => exact handsOver_of_planner hu hroute
    | developer =>
        obtain ⟨-, rfl⟩ | ⟨hplain, -⟩ := impl_developer (by simpa using himpl)
        · obtain ⟨convo, events, llmInput, -, hturn⟩ := developerReact_ok hrun
          refine handsOver_of_developer ?_ hroute
          rw [hvalues, hturn]
          exact endsWithReply_developerReactUpdate _ _ _ _
        · rw [hu] at hplain
          cases hplain
    | tools m =>
        obtain ⟨-, rfl, -⟩ := impl_tools (by simpa using himpl)
        rw [route_tools _ _ _ hu, Except.ok.injEq] at hroute
        exact .of_next (.inr (.inl hroute.symm))
    -- The oracle runs right after the developer, whose reply still ends the transcript.
    | verify =>
        obtain ⟨rfl, rfl⟩ := impl_verify (by simpa using himpl)
        have hrun' : verifier w c.values = e.run := Except.ok.inj hrun
        rw [← hrun'] at hvalues
        exact handsOver_of_verify (hc.reply (.inr hn)) hvalues hroute
    | supervisor =>
        obtain ⟨rfl, rfl⟩ := impl_supervisor (by simpa using himpl)
        have hrun' : supervisor supervisorSystem w c.values = e.run := Except.ok.inj hrun
        refine handsOver_of_supervisor ?_ hroute
        rw [hvalues, ← hrun']
        exact failed_supervisor (hc.failed hn)
    | reviewer => exact handsOver_of_reviewer hu hroute
    | delivery =>
        rw [route_delivery, Except.ok.injEq] at hroute
        exact .of_next (.inl hroute.symm)

/-- The start of a resume keeps the invariant: it schedules the developer or nothing. -/
theorem handsOver_resumed (hu : p.usesTools = true) {d : Decision} {atNode : AtNode}
    (hc : c.HandsOver)
    (h : (p.compiledWith v₁ v₂ tools approval).beginResume c d atNode = .ok c') :
    c'.HandsOver := by
  cases atNode with
  | toolCall =>
      cases h
      exact hc.congr rfl rfl
  | reviewer =>
      cases d with
      | dict _ _ => cases h
      | str text =>
          have hroute : (p.compiled tools approval).route .reviewer c'.values = .ok c'.next :=
            (Graph.updateState_inv h).2
          exact handsOver_of_reviewer hu hroute
  | planner =>
      cases d with
      | dict _ _ => cases h
      | str text =>
          have hroute : (p.compiled tools approval).route .planner c'.values = .ok c'.next :=
            (Graph.updateState_inv h).2
          exact handsOver_of_planner hu hroute
  | other name => cases d <;> cases h

theorem handsOver_of_run (hu : p.usesTools = true) {taskId : String} {req : TaskRequest}
    {h : List Action}
    (hrun : Run (ServiceStep (p.compiledWith v₁ v₂ tools approval) b)
      ((p.compiledWith v₁ v₂ tools approval).start taskId req) h c) : c.HandsOver := by
  have hstart : ((p.compiledWith v₁ v₂ tools approval).start taskId req).next = some .planner :=
    congrArg some (if_pos (delivers_of_usesTools hu))
  refine hrun.invariant (P := Config.HandsOver) ?_ ⟨?_, ?_, fun _ => .inl rfl⟩
  · intro c a c' hc hs
    cases hs with
    | superstep hstep => exact handsOver_superstep hu hc hstep
    | resume _ hb => exact handsOver_resumed hu hc hb
  · rw [hstart]
    simp
  · rw [hstart]
    simp

/-- **What a superstep that returns to the developer has told it**, in a state that hands over. -/
theorem informed_iff_of_returns (hu : p.usesTools = true)
    (hv₁ : v₁ = none ∨ v₁ = some .gate) (hv₂ : v₂ = none ∨ v₂ = some .twoCall) {w : World}
    {e : StepLog} (hc : c.HandsOver)
    (h : (p.compiledWith v₁ v₂ tools approval).superstep b w c = .ok (e, c'))
    (hret : Returns c e c') :
    c'.values.Informed (news e.node c'.values) ↔
      (e.node = .reviewer → v₂ = none) ∧ (e.node = .planner → v₁ = none ∨
        ∃ text, .human text ∈ c.values.sinceReply ∧ Py.Contains text w.gate.plan) := by
  obtain ⟨hnext, hnode⟩ := hret
  obtain ⟨n, impl, hn, he, hrun, himpl, ⟨-, hnext'⟩ | ⟨hvalues, hroute⟩⟩ :=
    compiledWith_superstep hu h
  · -- an interrupted node stays scheduled
    rw [hnext', hn] at hnext
    rw [he, Option.some.inj hnext] at hnode
    simp at hnode
  · rw [he] at hnode ⊢
    rw [hnext] at hroute
    rcases hnode with rfl | rfl | rfl | ⟨rfl, hne⟩
    · have hreply := hc.reply (.inl hn)
      rw [if_neg (by simp), if_pos rfl] at himpl
      subst himpl
      rw [route_reviewer _ _ _ (ne_solo_of_usesTools hu), Except.ok.injEq] at hroute
      have hrev := review_of_afterReview hu hroute
      rcases hv₂ with rfl | rfl
      · have hrun' : reviewer reviewerSystem [] w c.values = e.run := Except.ok.inj hrun
        rw [hvalues, ← hrun'] at hrev ⊢
        refine iff_of_true (informed_reviewer hreply ?_) (by simp)
        by_contra hd
        simp [TaskState.ledger, reviewer, hd] at hrev
      · have hrun' : reviewerTwoCall reviewerTwoCallSystem [] w c.values = e.run :=
          Except.ok.inj hrun
        rw [hvalues, ← hrun']
        exact iff_of_false (not_informed_reviewerTwoCall hreply _) (by simp)
    · have hreply := hc.reply (.inr hn)
      obtain ⟨rfl, rfl⟩ := impl_verify (by simpa using himpl)
      have hrun' : verifier w c.values = e.run := Except.ok.inj hrun
      rw [route_verify, Except.ok.injEq] at hroute
      have hv := verification_of_afterVerify hroute
      rw [hvalues, ← hrun'] at hv ⊢
      exact iff_of_true ((failed_of_verification hreply hv).informed (.inl rfl)) (by simp)
    · obtain ⟨rfl, rfl⟩ := impl_supervisor (by simpa using himpl)
      have hrun' : supervisor supervisorSystem w c.values = e.run := Except.ok.inj hrun
      rw [hvalues, ← hrun']
      exact iff_of_true ((failed_supervisor (hc.failed hn)).informed (.inr rfl)) (by simp)
    · have hfailed := (hc.replan hn).resolve_left hne
      rw [if_pos rfl] at himpl
      subst himpl
      rcases hv₁ with rfl | rfl
      · have hrun' : planner plannerSystem [] w c.values = e.run := Except.ok.inj hrun
        rw [hvalues, ← hrun']
        exact iff_of_true (informed_planner hfailed) (by simp)
      · have hrun' : AgentRoom.plannerGate plannerGateSystem [] w c.values = e.run :=
          Except.ok.inj hrun
        rw [hvalues, ← hrun', informed_plannerGate_iff hfailed]
        simp

end Preset

/-- **New feedback reaches the developer unless a variant has found it.** In every history of
`full_react` or `goal` with variants for its planner and its reviewer, a superstep that returns
control to the developer has told it the news on a fresh budget exactly if it was not the two-call
reviewer, nor a planner gate whose plan is not a part of what the developer has been told before. -/
theorem feedback_reaches_developer_iff {p : Preset} (hu : p.usesTools = true)
    {v₁ v₂ : Option Variant} {g : Graph}
    (hg : build builtinRegistry (p.spec.withVariants v₁ v₂) = .ok g) {b : Bindings}
    {taskId : String} {req : TaskRequest} {h : List Action} {c c' : Config}
    (hrun : Run (ServiceStep g b) (g.start taskId req) h c) {w : World} {e : StepLog}
    (hs : g.superstep b w c = .ok (e, c')) (hret : Returns c e c') :
    c'.values.Informed (news e.node c'.values) ↔
      (e.node = .reviewer → v₂ = none) ∧ (e.node = .planner → v₁ = none ∨
        ∃ text, .human text ∈ c.values.sinceReply ∧ Py.Contains text w.gate.plan) := by
  have hresolve : resolveToolsWithPolicy Preset.reactDeveloper builtinRegistry
      = .ok Preset.builtinDevTools := by decide
  have hreact : Preset.reactDeveloper.isReact = true := rfl
  obtain ⟨hv₁, hv₂, rfl⟩ := Preset.build_withVariants hreact rfl rfl rfl hresolve hu hg
  exact Preset.informed_iff_of_returns hu hv₁ hv₂ (Preset.handsOver_of_run hu hrun) hs hret

/-! ## A reviewer that is heard and one that is not -/

namespace SentBack

/-- A world whose reviewer sends the work back. -/
def world : World :=
  { World.agreeable with
    review := { decision := .revisionRequired, feedback := "use a dict" } }

/-- The state the task starts in. -/
def created : TaskState := initialState "task" { title := "t", description := "d" }

/-- After the planner. -/
def planned : TaskState := created.apply (planner plannerSystem [] world created).update

/-- After the developer's turn. -/
def developed : TaskState :=
  planned.apply (developerReactUpdate planned
    (assembledConvo developerSystemWithTools [] 8 world planned) [] world.message)

/-- After the reviewer. -/
def reviewed (v : Option Variant) : TaskState :=
  match v with
  | none => developed.apply (reviewer reviewerSystem [] world developed).update
  | some _ => developed.apply (reviewerTwoCall reviewerTwoCallSystem [] world developed).update

variable (v : Option Variant)

/-- The graph of `full_react` with a variant of its reviewer. -/
abbrev graph : Graph := Preset.fullReact.compiledWith none v Preset.builtinDevTools false

theorem superstep_planner :
    ∃ e, (graph v).superstep {} world { values := created, next := some .planner }
      = .ok (e, { values := planned, next := some .developer }) :=
  ⟨_, Graph.superstep_eq rfl rfl rfl rfl rfl rfl rfl⟩

theorem superstep_developer :
    ∃ e, (graph v).superstep {} world { values := planned, next := some .developer }
      = .ok (e, { values := developed, next := some .reviewer }) := by
  have hrun : (NodeImpl.developerReact developerSystemWithTools [] Preset.builtinDevTools 8).run
      {} world planned [] = _ := developerReact_default _ _ _ _ _
  have hroute : (graph v).route .developer developed = .ok (some .reviewer) :=
    (Preset.compiledWith_route _ _).trans (Preset.route_developed _ _ _ rfl _ _ _)
  exact ⟨_, Graph.superstep_eq (c := { values := planned, next := some .developer }) rfl rfl rfl rfl
    hrun rfl hroute⟩

theorem superstep_reviewer :
    ∃ e, (graph v).superstep {} world { values := developed, next := some .reviewer }
        = .ok (e, { values := reviewed v, next := some .developer }) ∧ e.node = .reviewer := by
  have hroute : (graph v).route .reviewer (reviewed v) = .ok (some .developer) := by
    have hled : (reviewed v).ledger.review = some .revisionRequired ∧
        (reviewed v).ledger.revisionRound = developed.revisionRound + 1 ∧
        (reviewed v).ledger.maxRevisions = developed.maxRevisions := by
      cases v with
      | none =>
          by_cases hs : developed.devMessages = [] <;>
            simp [reviewed, TaskState.ledger, reviewer, world, hs]
      | some v =>
          simp [reviewed, TaskState.ledger, reviewerTwoCall, world, World.agreeable, focusEscalates]
    obtain ⟨hrev, hround, hmax⟩ := hled
    rw [Preset.compiledWith_route, Preset.route_reviewer _ _ _ (by decide), Ledger.afterReview, hrev]
    dsimp only
    rw [hround, hmax, if_neg (by decide)]
  cases v with
  | none => exact ⟨_, Graph.superstep_eq rfl rfl rfl rfl rfl rfl hroute, rfl⟩
  | some v => exact ⟨_, Graph.superstep_eq rfl rfl rfl rfl rfl rfl hroute, rfl⟩

/-- The run up to the reviewer. -/
theorem history : ∃ h, Run (ServiceStep (graph v) {})
    ((graph v).start "task" { title := "t", description := "d" }) h
    { values := developed, next := some .reviewer } := by
  obtain ⟨e₁, hplanned⟩ := superstep_planner v
  obtain ⟨e₂, hdeveloped⟩ := superstep_developer v
  exact ⟨_, (Run.single (.superstep hplanned)).snoc (.superstep hdeveloped)⟩

/-- Both specs build. -/
theorem build_graph (hv : v = none ∨ v = some .twoCall) :
    build builtinRegistry (Preset.fullReact.spec.withVariants none v) = .ok (graph v) := by
  have hresolve : resolveToolsWithPolicy Preset.reactDeveloper builtinRegistry
      = .ok Preset.builtinDevTools := by decide
  have hreact : Preset.reactDeveloper.isReact = true := rfl
  have hok : (build builtinRegistry (Preset.fullReact.spec.withVariants none v)).isOk = true := by
    rcases hv with rfl | rfl <;> rfl
  cases hb : build builtinRegistry (Preset.fullReact.spec.withVariants none v) with
  | error e =>
      rw [hb] at hok
      cases hok
  | ok g =>
      obtain ⟨-, -, rfl⟩ := Preset.build_withVariants hreact rfl rfl rfl hresolve rfl hb
      rfl

end SentBack

/-- Without variants the developer is told what the reviewer has found. -/
theorem feedback_reaches_developer_reviewed :
    (SentBack.reviewed none).Informed (news .reviewer (SentBack.reviewed none)) := by
  obtain ⟨h, hrun⟩ := SentBack.history none
  obtain ⟨e, hs, he⟩ := SentBack.superstep_reviewer none
  have hret : Returns { values := SentBack.developed, next := some .reviewer } e
      { values := SentBack.reviewed none, next := some .developer } := ⟨rfl, .inl he⟩
  have hiff := feedback_reaches_developer_iff (p := .fullReact) rfl
    (SentBack.build_graph none (.inl rfl)) hrun hs hret
  rw [he] at hiff
  exact hiff.mpr (by simp)

/-- The two-call reviewer sends the work back, and the developer goes on without its feedback. -/
theorem two_call_feedback_lost :
    ∃ g h c e c', build builtinRegistry (Preset.fullReact.spec.withVariants none (some .twoCall))
        = .ok g ∧
      Run (ServiceStep g {}) (g.start "task" { title := "t", description := "d" }) h c ∧
      g.superstep {} SentBack.world c = .ok (e, c') ∧ Returns c e c' ∧
      news e.node c'.values = ["use a dict"] ∧ ¬ c'.values.Informed (news e.node c'.values) := by
  obtain ⟨h, hrun⟩ := SentBack.history (some .twoCall)
  obtain ⟨e, hs, he⟩ := SentBack.superstep_reviewer (some .twoCall)
  refine ⟨_, h, _, e, _, SentBack.build_graph _ (.inr rfl), hrun, hs, ⟨rfl, .inl he⟩, ?_, ?_⟩
  · rw [he]
    rfl
  · refine not_informed_reviewerTwoCall ?_ _
    exact endsWithReply_developerReactUpdate _ _ _ _

end AgentRoom
