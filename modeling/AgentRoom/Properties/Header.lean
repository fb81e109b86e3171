import AgentRoom.Properties.ClientTrace
import AgentRoom.Web.App

set_option autoImplicit false

/-! # The header of a followed run

The header has no clock of its own: what it shows is folded from the events of the stream. In
every run of a preset it names the node at work, and at the end it has settled on the status of
the result (`header_follows_run`). A review is what could get in the way, since a decision
outranks the role at work. So the invariant (`Following`) ties the decision to the node that is
scheduled.
-/

namespace AgentRoom

open Transition (Run)
open Web Web.TaskStore

/-- What the header shows while a node is at work. Tools, verifier and supervisor have no desk. -/
def NodeName.shown : NodeName → UiStatus
  | planner => .planning
  | developer => .inProgress
  | delivery => .delivering
  | reviewer | verify | supervisor | tools _ => .submittedForReview

/-- What the header shows once a followed task has stopped. A task that was never delivered keeps
the status `running`, and its stream seems to be cut off. -/
def TaskStatus.shown : TaskStatus → UiStatus
  | completed => .completed
  | failed => .failed
  | awaitingUser => .needUserDecision
  | running => .disconnected

/-- The frames that announce a node. -/
def startFrames (taskId : String) (n : NodeName) : List Frame :=
  eventFrames { data := .chainStart, name := n.text, taskId := some taskId }

namespace Web

/-! ## What events do to the header -/

namespace StatusInput

/-- A role starts. A developer takes up the revision that was asked for. -/
def started (i : StatusInput) (role : Role) : StatusInput :=
  { i with
    serverStatus := some .running
    activeRole := some role
    reviewDecision :=
      if role = .developer ∧ i.reviewDecision = some "revision_required" then none
      else i.reviewDecision
    connection := some .live
    hasStarted := true }

/-- A role ends, the reviewer with a decision. -/
def ended (i : StatusInput) (role : Role) (decision : Option String) : StatusInput :=
  { i with
    activeRole := if i.activeRole = some role then none else i.activeRole
    lastRole := some role
    reviewDecision := if role = .reviewer then decision.or i.reviewDecision else i.reviewDecision }

end StatusInput

section Events

variable {js : Js}

theorem statusInput_nodeStart (s : TaskStore) (role : Role) (taskId : Option String)
    (raw : Value) :
    (s.onEvent js ⟨some role, taskId, raw, .nodeStart⟩).statusInput =
      s.statusInput.started role := by
  have hdecision : asString (if role = .developer ∧
      asString s.reviewDecision = some "revision_required" then none else s.reviewDecision) =
      if role = .developer ∧ asString s.reviewDecision = some "revision_required" then none
      else asString s.reviewDecision := by
    split_ifs <;> rfl
  exact congrArg (fun d => { s.statusInput.started role with reviewDecision := d }) hdecision

theorem statusInput_nodeEnd (s : TaskStore) (role : Role) (taskId : Option String) (raw : Value)
    (summary : Record) :
    (s.onEvent js ⟨some role, taskId, raw, .nodeEnd summary⟩).statusInput =
      s.statusInput.ended role (asString (summary.get "decision")) := by
  have hdecision : asString (s.applyNodeEnd js role summary).reviewDecision =
      if role = .reviewer then (asString (summary.get "decision")).or (asString s.reviewDecision)
      else asString s.reviewDecision := by
    simp only [applyNodeEnd]
    split_ifs
    · cases asString (summary.get "decision") <;> rfl
    · rfl
  exact congrArg (fun d => { s.statusInput.ended role none with reviewDecision := d }) hdecision

/-- An aside changes nothing the header shows. -/
theorem statusInput_aside {s : TaskStore} {event : AgentEvent} (h : event.body.isAside = true) :
    (s.onEvent js event).statusInput = s.statusInput := by
  obtain ⟨role, taskId, raw, body⟩ := event
  cases body with
  | nodeStart | nodeEnd summary | taskError error | taskFinished result => cases h
  | _ => cases role <;> rfl

theorem statusInput_asides {s : TaskStore} {events : List AgentEvent}
    (h : ∀ event ∈ events, event.body.isAside = true) :
    (events.foldl (onEvent js) s).statusInput = s.statusInput := by
  induction events generalizing s with
  | nil => rfl
  | cons event rest ih =>
      rw [List.foldl_cons, ih fun e he => h e (List.mem_cons_of_mem _ he),
        statusInput_aside (h event List.mem_cons_self)]

/-- The frames of the calls leave the header alone. -/
theorem statusInput_calls {s : TaskStore} {dumps : Value → Text} {calls : List Frame}
    (h : ∀ f ∈ calls, f.isAside = true) :
    ((runEvents js dumps calls).foldl (onEvent js) s).statusInput = s.statusInput :=
  statusInput_asides fun _ hevent =>
    isAside_of_mem_runEvents (fun f hf => Frame.mem_asideTypes (h f hf)) hevent

end Events

/-! ## A run that is under way -/

/-- A decision the store may show before node `n`: a revision that the developer is about to take
up, or the approval of what is delivered. -/
def Leads (decision : Option String) (n : NodeName) : Prop :=
  decision = none ∨ (decision = some "revision_required" ∧ n = .developer) ∨
    (decision = some "approved" ∧ n = .delivery)

theorem Leads.eq_none {decision : Option String} {n : NodeName} (h : Leads decision n)
    (hdeveloper : n ≠ .developer) (hdelivery : n ≠ .delivery) : decision = none := by
  rcases h with hnone | ⟨-, hn⟩ | ⟨-, hn⟩
  · exact hnone
  · exact absurd hn hdeveloper
  · exact absurd hn hdelivery

/-- Between two supersteps: how what the header is derived from goes with the checkpoint. -/
structure Following (c : Config) (i : StatusInput) : Prop where
  serverStatus : i.serverStatus = none ∨ i.serverStatus = some .running
  connection : i.connection = some .connecting ∨ i.connection = some .live
  resuming : i.resuming = false
  interrupted : i.interrupted = false
  activeRole : i.activeRole = none
  leads : ∀ n, c.next = some n → Leads i.reviewDecision n
  /-- Only a developer hands over to a node without a desk. -/
  lastRole : ∀ n, c.next = some n → n.uiRole = none → i.lastRole = some .developer
  escalated : i.reviewDecision = some "need_user_decision" →
    c.control.review = some .needUserDecision

theorem Following.start {p : Preset} {tools : List Tool} {approval : Bool} (taskId : String)
    (req : TaskRequest) (instruction : String) (js : Js) :
    Following ((p.compiled tools approval).start taskId req)
      (startTask js instruction []).statusInput where
  serverStatus := .inl rfl
  connection := .inl rfl
  resuming := rfl
  interrupted := rfl
  activeRole := rfl
  leads _ _ := .inl rfl
  lastRole n hn hrole := by
    have hentry : ∀ p : Preset, (p.compiled tools approval).entry.uiRole ≠ none := by
      intro p
      cases p <;> simp [Preset.compiled, Preset.delivers, NodeName.uiRole]
    cases hn
    exact absurd hrole (hentry p)
  escalated := nofun

end Web

/-- The reviewer's summary has its decision. -/
theorem decision_summary {u : Update} {d : ReviewerDecision}
    (hreview : u.review = some (some d)) (dumped : Bool) :
    asString (Record.get (summarizeNodeOutput UiRole.reviewer.text u dumped) "decision") =
      some d.decision.text := by
  have hjoin : u.review.join = some d := by rw [hreview, Option.join_some]
  have hor : (Value.str d.decision.text).or .none = .str d.decision.text := by
    cases d.decision <;> rfl
  have hsummary : summarizeNodeOutput UiRole.reviewer.text u false =
      [("decision", (Value.str d.decision.text).or .none),
        ("round", .ofInt (u.revisionRound.map Int.ofNat))] := by
    simp only [summarizeNodeOutput, hjoin]
    rfl
  rw [summarizeNodeOutput_dumped, hsummary, hor]
  rfl

/-! ## Where the nodes with a desk lead -/

namespace Advances

variable {p : Preset} {c c' : Config} {e : StepLog}

theorem next_of_planner (h : Advances p c e c') (he : e.node = .planner) :
    c'.next = none ∨ c'.next = some .developer := by
  rw [h.next_eq, Control.step_planner (h.next.trans (congrArg some he)), Ledger.goto_next]
  exact Ledger.afterPlanner_cases p _

theorem next_of_delivery (h : Advances p c e c') (he : e.node = .delivery) : c'.next = none := by
  rw [h.next_eq, Control.step_delivery (h.next.trans (congrArg some he)), Ledger.goto_next]

/-- A reviewer hands over as its decision says. -/
theorem next_of_reviewer (h : Advances p c e c') (he : e.node = .reviewer) {d : ReviewerDecision}
    (hreview : e.run.update.review = some (some d)) {n : NodeName} (hn : c'.next = some n) :
    (d.decision = .approved ∧ n = .delivery) ∨
      (d.decision = .revisionRequired ∧ n = .developer) := by
  have hverdict : e.run.choice.verdict = d.decision := by simp [NodeRun.choice, hreview]
  rw [h.next_eq, Control.step_reviewer (h.next.trans (congrArg some he)), Ledger.goto_next,
    Ledger.afterReview_reviewer, hverdict] at hn
  cases hd : d.decision with
  | needUserDecision =>
      rw [hd] at hn
      cases hn
  | approved =>
      simp only [hd, Option.ite_none_right_eq_some, Option.some.injEq] at hn
      exact .inl ⟨rfl, hn.2.symm⟩
  | revisionRequired =>
      simp only [hd, Option.ite_none_left_eq_some, Option.some.injEq] at hn
      exact .inr ⟨rfl, hn.2.symm⟩

theorem review_of_reviewer (h : Advances p c e c') {d : ReviewerDecision}
    (hreview : e.run.update.review = some (some d)) :
    c'.control.review = some d.decision := by
  show c'.values.review.map ReviewerDecision.decision = _
  rw [h.review, hreview]
  rfl

end Advances

namespace Web.Following

variable {p : Preset} {c c' : Config} {e : StepLog} {i : StatusInput}

/-- A node without a desk leaves the header as it is. -/
theorem unannounced (h : Following c i) (hstep : Advances p c e c') (hrole : e.node.uiRole = none) :
    Following c' i := by
  have hnone : i.reviewDecision = none := by
    refine (h.leads e.node hstep.next).eq_none ?_ ?_ <;>
      · intro hn
        rw [hn] at hrole
        cases hrole
  exact
    { h with
      leads := fun _ _ => .inl hnone
      lastRole := fun _ _ _ => h.lastRole e.node hstep.next hrole
      escalated := fun hneed => by rw [hnone] at hneed; cases hneed }

/-- A role has started and ended, and what it leaves of a decision goes with the checkpoint. -/
theorem ended (h : Following c i) {r : UiRole} {decision : Option String}
    (hleads : ∀ n, c'.next = some n →
      Leads ((i.started r.role).ended r.role decision).reviewDecision n)
    (hlast : ∀ n, c'.next = some n → n.uiRole = none → r.role = .developer)
    (hescalated : ((i.started r.role).ended r.role decision).reviewDecision =
      some "need_user_decision" → c'.control.review = some .needUserDecision) :
    Following c' ((i.started r.role).ended r.role decision) where
  serverStatus := .inr rfl
  connection := .inr rfl
  resuming := h.resuming
  interrupted := h.interrupted
  activeRole := if_pos rfl
  leads := hleads
  lastRole n hn hnone := congrArg some (hlast n hn hnone)
  escalated := hescalated

theorem ended_of_none (h : Following c i) {r : UiRole} {decision : Option String}
    (hnone : ((i.started r.role).ended r.role decision).reviewDecision = none)
    (hlast : ∀ n, c'.next = some n → n.uiRole = none → r.role = .developer) :
    Following c' ((i.started r.role).ended r.role decision) := by
  refine h.ended (fun _ _ => .inl hnone) hlast fun hneed => ?_
  rw [hnone] at hneed
  cases hneed

/-- **One superstep** of a node with a desk: it starts and ends, the reviewer with its
decision. -/
theorem announced (h : Following c i) (hstep : Advances p c e c') {r : UiRole}
    (hrole : e.node.uiRole = some r) {decision : Option String}
    (hdecision : ∀ d, e.node = .reviewer → e.run.update.review = some (some d) →
      decision = some d.decision.text) :
    Following c' ((i.started r.role).ended r.role decision) := by
  have hbefore := h.leads e.node hstep.next
  have hcontributes := hstep.contributes
  generalize he : e.node = n at hrole hbefore hcontributes hdecision
  cases n with
  | verify | supervisor | tools n => cases hrole
  | planner =>
      cases hrole
      -- a planner that is reached again has no decision before it
      have hnone := hbefore.eq_none (by simp) (by simp)
      have hshown : ((i.started .planner).ended .planner decision).reviewDecision = none := by
        simp [StatusInput.started, StatusInput.ended, hnone]
      refine h.ended_of_none hshown fun n hn hdesk => ?_
      rcases hstep.next_of_planner he with hend | hdeveloper
      · rw [hend] at hn
        cases hn
      · rw [hdeveloper] at hn
        cases hn
        cases hdesk
  | developer =>
      cases hrole
      -- its start clears the revision it takes up
      have hshown : ((i.started .developer).ended .developer decision).reviewDecision = none := by
        rcases hbefore with hnone | ⟨hrevision, -⟩ | ⟨-, hn⟩
        · simp [StatusInput.started, StatusInput.ended, hnone]
        · simp [StatusInput.started, StatusInput.ended, hrevision]
        · cases hn
      exact h.ended_of_none hshown fun _ _ _ => rfl
  | reviewer =>
      cases hrole
      cases hcontributes with
      | other hreviewer => exact absurd rfl hreviewer
      | @review d hreview =>
          -- the summary has the decision that the router reads
          have hshown : ((i.started UiRole.reviewer.role).ended UiRole.reviewer.role
              decision).reviewDecision = some d.decision.text := by
            rw [hdecision d rfl hreview]
            rfl
          refine h.ended (fun n hn => ?_) (fun n hn hdesk => ?_) (fun hneed => ?_)
          · rw [hshown]
            rcases hstep.next_of_reviewer he hreview hn with ⟨hd, rfl⟩ | ⟨hd, rfl⟩ <;> rw [hd]
            · exact .inr (.inr ⟨rfl, rfl⟩)
            · exact .inr (.inl ⟨rfl, rfl⟩)
          · rcases hstep.next_of_reviewer he hreview hn with ⟨-, rfl⟩ | ⟨-, rfl⟩ <;> cases hdesk
          · rw [hstep.review_of_reviewer hreview]
            rw [hshown] at hneed
            cases hd : d.decision with
            | needUserDecision => rfl
            | approved | revisionRequired =>
                rw [hd] at hneed
                exact absurd hneed (by decide)
  | delivery =>
      cases hrole
      have hend : ∀ n, c'.next ≠ some n := by simp [hstep.next_of_delivery he]
      refine h.ended (fun n hn => absurd hn (hend n)) (fun n hn => absurd hn (hend n)) ?_
      intro hneed
      rcases hbefore with hnone | ⟨-, hn⟩ | ⟨happroved, -⟩
      · simp [StatusInput.started, StatusInput.ended, UiRole.role, hnone] at hneed
      · cases hn
      · simp [StatusInput.started, StatusInput.ended, UiRole.role, happroved] at hneed

/-- **One superstep**, seen through its frames. -/
theorem nodeFrames {js : Js} {dumps : Value → Text} {s : TaskStore}
    (h : Following c s.statusInput) (hstep : Advances p c e c') {taskId : String} {dumped : Bool}
    {calls : List Frame} (hcalls : ∀ f ∈ calls, f.isAside = true)
    (hread : ∀ f ∈ nodeFrames taskId dumped calls e, f.isAside = false → Readable js dumps f) :
    Following c' ((runEvents js dumps (nodeFrames taskId dumped calls e)).foldl
      (onEvent js) s).statusInput := by
  cases hrole : e.node.uiRole with
  | none =>
      have haside := nodeFrames_of_not_uiRole hrole hstep.tools hcalls taskId dumped
      rw [statusInput_asides fun event hevent => isAside_of_mem_runEvents haside hevent]
      exact h.unannounced hstep hrole
  | some r =>
      rw [(runEvents_nodeFrames hrole (hstep.awake_of_uiRole hrole) hread).2, List.foldl_append,
        List.foldl_append, List.foldl_cons, List.foldl_nil, List.foldl_cons, List.foldl_nil,
        statusInput_nodeEnd, statusInput_calls hcalls, statusInput_nodeStart]
      refine h.announced hstep hrole fun d he hreview => ?_
      rw [he] at hrole
      cases hrole
      exact decision_summary hreview dumped

end Web.Following

/-! ## A node at work -/

namespace Web

/-- What the header is derived from while a node is at work. -/
structure AtWork (n : NodeName) (i : StatusInput) : Prop where
  serverStatus : i.serverStatus = none ∨ i.serverStatus = some .running
  connection : i.connection = some .connecting ∨ i.connection = some .live
  resuming : i.resuming = false
  interrupted : i.interrupted = false
  activeRole : i.activeRole = n.uiRole.map UiRole.role
  decision : i.reviewDecision = none ∨ (i.reviewDecision = some "approved" ∧ n = .delivery)
  lastRole : n.uiRole = none → i.lastRole = some .developer

/-- The scheduled node is announced, if it has a desk. -/
theorem Following.atWork {c : Config} {i : StatusInput} (h : Following c i) {n : NodeName}
    (hn : c.next = some n) : AtWork n (n.uiRole.elim i fun r => i.started r.role) := by
  have hleads := h.leads n hn
  cases hrole : n.uiRole with
  | none =>
      have hnone : i.reviewDecision = none := by
        refine hleads.eq_none ?_ ?_ <;>
          · rintro rfl
            cases hrole
      exact
        { serverStatus := h.serverStatus
          connection := h.connection
          resuming := h.resuming
          interrupted := h.interrupted
          activeRole := by rw [hrole]; exact h.activeRole
          decision := .inl hnone
          lastRole := h.lastRole n hn }
  | some r =>
      refine ⟨.inr rfl, .inr rfl, h.resuming, h.interrupted, by rw [hrole]; rfl, ?_,
        fun hnone => by rw [hrole] at hnone; cases hnone⟩
      rcases hleads with hnone | ⟨hrevision, rfl⟩ | ⟨happroved, rfl⟩
      · exact .inl (by simp [StatusInput.started, hnone])
      · cases hrole
        exact .inl (if_pos ⟨rfl, hrevision⟩)
      · cases hrole
        exact .inr ⟨by simp [StatusInput.started, UiRole.role, happroved], rfl⟩

namespace AtWork

variable {n : NodeName} {i : StatusInput}

theorem not_awaiting (h : AtWork n i) : ¬ (i.serverStatus = some .awaitingUser ∨
    i.reviewDecision = some "need_user_decision") := by
  rcases h.serverStatus with hs | hs <;> rcases h.decision with hd | ⟨hd, -⟩ <;> simp [hs, hd]

/-- Neither an end nor a stop nor a decision outranks what comes later. -/
theorem deriveStatus_eq (h : AtWork n i) (connection : Option ConnectionState) :
    deriveStatus { i with connection } =
      if connection = some .offline ∨ connection = some .recovering then .disconnected
      else n.shown := by
  have hfailed : i.serverStatus ≠ some .failed := by
    rcases h.serverStatus with hs | hs <;> simp [hs]
  have hcompleted : i.serverStatus ≠ some .completed := by
    rcases h.serverStatus with hs | hs <;> simp [hs]
  have hrevision : i.reviewDecision ≠ some "revision_required" := by
    rcases h.decision with hd | ⟨hd, -⟩ <;> simp [hd]
  have hactive := h.activeRole
  simp only [deriveStatus, hfailed, hcompleted, h.interrupted, h.resuming, h.not_awaiting,
    hrevision, if_false, Bool.false_eq_true]
  congr 1
  cases n with
  | planner | developer | reviewer | delivery => simp [hactive, NodeName.uiRole, UiRole.role,
      NodeName.shown]
  | verify | supervisor | tools n =>
      have hlast := h.lastRole rfl
      rcases h.decision with hd | ⟨-, hn⟩
      · simp [hactive, NodeName.uiRole, NodeName.shown, hd, hlast]
      · cases hn

theorem uiStatus_eq {s : TaskStore} (h : AtWork n s.statusInput) : s.uiStatus = n.shown := by
  refine (h.deriveStatus_eq s.statusInput.connection).trans (if_neg ?_)
  rcases h.connection with hc | hc <;> simp [hc]

theorem uiStatus_connectionLost {s : TaskStore} (h : AtWork n s.statusInput) (message : String) :
    (s.connectionLost message).uiStatus = .disconnected := by
  refine (h.deriveStatus_eq (s.connectionLost message).statusInput.connection).trans (if_pos ?_)
  cases s.taskId.any (· ≠ "") <;> simp [statusInput, connectionLost, setConnection]

end AtWork

end Web

/-! ## A task that has stopped -/

namespace Web.TaskStore

/-- The server's status is known, and nothing hides it. -/
structure Settled (s : TaskStore) (status : TaskStatus) : Prop where
  serverStatus : s.serverStatus = some (serverStatusOf status)
  resuming : s.resuming = false
  interrupted : s.interrupted = false

variable {s : TaskStore} {status : TaskStatus}

theorem Settled.uiStatus_eq (h : s.Settled status) (hrunning : status ≠ .running) :
    s.uiStatus = status.shown := by
  cases status with
  | running => exact absurd rfl hrunning
  | completed | failed | awaitingUser =>
      simp [uiStatus, statusInput, deriveStatus, h.serverStatus, h.resuming, h.interrupted,
        serverStatusOf, TaskStatus.shown]

theorem Settled.uiStatus_markInterrupted (h : s.Settled .running) :
    s.markInterrupted.uiStatus = .interrupted := by
  simp [uiStatus, statusInput, deriveStatus, markInterrupted, h.serverStatus, serverStatusOf]

/-- A stream that ends before the task does seems to be cut off, unless a decision is asked
for. -/
theorem Settled.uiStatus_streamEnded (h : s.Settled status)
    (hdecision : asString s.reviewDecision = some "need_user_decision" → status ≠ .running) :
    s.streamEnded.uiStatus = status.shown := by
  cases status with
  | running =>
      have hlost : s.streamEnded = s.connectionLost "事件流提前结束" :=
        if_pos (by simp [h.serverStatus, serverStatusOf])
      have hquiet : asString s.reviewDecision ≠ some "need_user_decision" :=
        fun hneed => hdecision hneed rfl
      rw [hlost]
      cases s.taskId.any (· ≠ "") <;>
        simp [connectionLost, setConnection, uiStatus, statusInput, deriveStatus, h.serverStatus,
          h.resuming, h.interrupted, hquiet, serverStatusOf, TaskStatus.shown]
  | completed | failed | awaitingUser =>
      have hkept : s.streamEnded = s := if_neg (by simp [h.serverStatus, serverStatusOf])
      rw [hkept]
      exact h.uiStatus_eq (by simp)

theorem settled_applySnapshot {js : Js} {result : Record} (hresuming : s.resuming = false)
    (hstatus : resultStatus result = some (serverStatusOf status)) :
    (s.applySnapshot js result).Settled status where
  serverStatus := by
    show (resultStatus result).or s.serverStatus = _
    rw [hstatus, Option.some_or]
  resuming := hresuming
  interrupted := rfl

/-- Opening a task shows its status, and one that should still run was interrupted. -/
theorem uiStatus_selectSession {js : Js} {result : Record} (id : String) (title : Option String)
    (hresult : result.get "status" = some (.str status.text)) :
    (selectSession js id title result).uiStatus =
      if status = .running then .interrupted else status.shown := by
  have hstatus : ∀ result : Record, result.get "status" = some (.str status.text) →
      resultStatus result = some (serverStatusOf status) := by
    intro result h
    rw [resultStatus, h]
    cases status <;> rfl
  have hset : (result.set "task_id" (.str id)).get "status" = some (.str status.text) := by
    rw [Record.get_set_of_ne result _ (by decide), hresult]
  have hnamed : ∀ opened : TaskStore, opened.Settled status →
      (if !truthy (result.get "task_id") && !truthy (result.get "id") then
        opened.applySnapshot js (result.set "task_id" (.str id)) else opened).Settled status := by
    intro opened hopened
    split_ifs
    · exact settled_applySnapshot hopened.resuming (hstatus _ hset)
    · exact hopened
  have hopened : (((reset (title.getD "")).setConnection .recovering none).applySnapshot js
      result).Settled status := settled_applySnapshot rfl (hstatus result hresult)
  have hsettled := hnamed _ hopened
  have htext : asString (result.get "status") = some "running" ↔ status = .running := by
    rw [hresult]
    cases status <;> simp [asString, TaskStatus.text]
  unfold selectSession
  dsimp only
  -- a task of the history that has not ended is not streamed any more
  by_cases hrunning : status = .running
  · rw [if_pos (htext.mpr hrunning), if_pos hrunning]
    rw [hrunning] at hsettled
    exact hsettled.uiStatus_markInterrupted
  · rw [if_neg (htext.not.mpr hrunning), if_neg hrunning]
    exact hsettled.uiStatus_eq hrunning

end Web.TaskStore

/-! ## Whole streams -/

section Followed

variable {p : Preset} {tools : List Tool} {approval : Bool} {b : Bindings} {taskId : String}
  {req : TaskRequest} {l : List StepLog} {c : Config} {frames : List Frame} {js : Js}
  {dumps : Value → Text}

theorem following_of_run
    (hrun : Run (StreamStep (p.compiled tools approval) b taskId)
      ((p.compiled tools approval).start taskId req, [startedFrame taskId]) l (c, frames))
    (hread : ∀ f ∈ frames, f.isAside = false → Readable js dumps f) (instruction : String) :
    Following c (startTask js instruction (runEvents js dumps frames)).statusInput := by
  refine hrun.invariant (P := fun s => (∀ f ∈ s.2, f.isAside = false → Readable js dumps f) →
    Following s.1 (startTask js instruction (runEvents js dumps s.2)).statusInput) ?_ ?_ hread
  · rintro ⟨c, frames⟩ e ⟨c', frames'⟩ hfollowing hstep hread
    cases hstep with
    | mk hstep hcalls =>
        rw [runEvents_append, startTask, List.foldl_append]
        exact (hfollowing fun f hf => hread f (List.mem_append_left _ hf)).nodeFrames
          (Preset.superstep_advances hstep) hcalls fun f hf => hread f (List.mem_append_right _ hf)
  · intro _
    rw [runEvents_startedFrame]
    exact .start taskId req instruction js

/-- While a node is at work, the store has its start and some events of its calls. -/
theorem atWork_of_run
    (hrun : Run (StreamStep (p.compiled tools approval) b taskId)
      ((p.compiled tools approval).start taskId req, [startedFrame taskId]) l (c, frames))
    {n : NodeName} (hn : c.next = some n) {calls : List Frame}
    (hcalls : ∀ f ∈ calls, f.isAside = true)
    (hread : ∀ f ∈ frames ++ startFrames taskId n ++ calls, f.isAside = false →
      Readable js dumps f) (instruction : String) :
    AtWork n (startTask js instruction
      (runEvents js dumps (frames ++ startFrames taskId n ++ calls))).statusInput := by
  have hfollowing := following_of_run hrun (fun f hf => hread f (by simp [hf])) instruction
  rw [runEvents_append, runEvents_append, startTask, List.foldl_append, List.foldl_append,
    statusInput_calls hcalls]
  rw [startTask] at hfollowing
  have hwork := hfollowing.atWork hn
  rw [startFrames, eventFrames_start] at hread ⊢
  cases hrole : n.uiRole with
  | none =>
      rw [hrole] at hwork
      exact hwork
  | some r =>
      rw [hrole] at hread hwork
      have hstart : Readable js dumps (formattedFrame (UiEvent.dict ⟨some taskId, .nodeStart r⟩)) :=
        hread (UiBody.toFrame taskId (.nodeStart r)) (by simp) rfl
      rw [Option.toList_some, List.map_singleton, List.map_singleton, UiBody.toFrame,
        runEvents_formattedFrame hstart, seen_nodeStart, Option.toList_some, List.foldl_cons,
        List.foldl_nil, statusInput_nodeStart]
      exact hwork

/-- The last frame settles the store. -/
theorem settled_of_run
    (hrun : Run (StreamStep (p.compiled tools approval) b taskId)
      ((p.compiled tools approval).start taskId req, [startedFrame taskId]) l (c, frames))
    {flushed : List Frame} (hflushed : ∀ f ∈ flushed, f.isAside = true)
    (hread : ∀ f ∈ frames ++ flushed ++ [finishedFrame taskId c], f.isAside = false →
      Readable js dumps f) (instruction : String) :
    let s := startTask js instruction
      (runEvents js dumps (frames ++ flushed ++ [finishedFrame taskId c]))
    s.Settled c.status ∧
      (asString s.reviewDecision = some "need_user_decision" → c.status ≠ .running) := by
  have hfollowing := following_of_run hrun (fun f hf => hread f (by simp [hf])) instruction
  have hfinished : Readable js dumps (finishedFrame taskId c) := hread _ (by simp) rfl
  have hbefore : Following c (startTask js instruction
      (runEvents js dumps (frames ++ flushed))).statusInput := by
    rw [runEvents_append, startTask, List.foldl_append, statusInput_calls hflushed]
    exact hfollowing
  dsimp only
  rw [runEvents_append, runEvents_finishedFrame hfinished, startTask, List.foldl_append,
    List.foldl_cons, List.foldl_nil]
  rw [startTask] at hbefore
  generalize (runEvents js dumps (frames ++ flushed)).foldl _ _ = s at hbefore
  refine ⟨⟨?_, hbefore.resuming, hbefore.interrupted⟩, fun hneed => ?_⟩
  · show some (finalStatus _) = _
    rw [finalStatus, resultStatus_modelDump, Option.getD_some]
    rfl
  · have hreview := hbefore.escalated hneed
    rw [Config.status_eq, Control.status, Ledger.status, hreview]
    split_ifs <;> simp_all

/-- **The header follows the run.** While a node is at work, the header shows it, or that the
connection is lost. Once the run has stopped, the header shows the status of the result, and so
does that of a page which opens the task later. Only a run that stops without an end shows as a
lost connection on the one and as interrupted on the other. -/
theorem header_follows_run
    (hrun : Run (StreamStep (p.compiled tools approval) b taskId)
      ((p.compiled tools approval).start taskId req, [startedFrame taskId]) l (c, frames))
    (instruction : String) :
    (∀ n, c.next = some n → ∀ calls : List Frame, (∀ f ∈ calls, f.isAside = true) →
      (∀ f ∈ frames ++ startFrames taskId n ++ calls, f.isAside = false → Readable js dumps f) →
      let s := startTask js instruction
        (runEvents js dumps (frames ++ startFrames taskId n ++ calls))
      s.uiStatus = n.shown ∧ ∀ message, (s.connectionLost message).uiStatus = .disconnected) ∧
    (∀ flushed : List Frame, (∀ f ∈ flushed, f.isAside = true) →
      (∀ f ∈ frames ++ flushed ++ [finishedFrame taskId c], f.isAside = false →
        Readable js dumps f) →
      let result := materializeResult taskId c
      (startTask js instruction
          (runEvents js dumps (frames ++ flushed ++ [finishedFrame taskId c]))).streamEnded.uiStatus
        = result.status.shown ∧
      ∀ id title, (selectSession js id title (normalizeTaskResult (.dict result.modelDump))).uiStatus
        = if result.status = .running then .interrupted else result.status.shown) := by
  refine ⟨fun n hn calls hcalls hread => ?_, fun flushed hflushed hread => ⟨?_, ?_⟩⟩
  · have hwork := atWork_of_run hrun hn hcalls hread instruction
    exact ⟨hwork.uiStatus_eq, hwork.uiStatus_connectionLost⟩
  · obtain ⟨hsettled, hdecision⟩ := settled_of_run hrun hflushed hread instruction
    exact hsettled.uiStatus_streamEnded hdecision
  · intro id title
    rw [normalizeTaskResult_modelDump]
    exact uiStatus_selectSession id title rfl

end Followed

/-- A developer's code waits for its review, and is approved by a preset that delivers nothing:
the page that followed it takes the end for a lost connection. -/
theorem header_follows_run_reviewed :
    let c : Config := { values := (sampleCode []).after, next := some .reviewer }
    let c' : Config := { values := sampleReview.after, next := none }
    let frames := [startedFrame "t1"] ++ [sampleCode []].flatMap (nodeFrames "t1" false [])
    let working := frames ++ startFrames "t1" .reviewer ++ []
    let ended := [startedFrame "t1"] ++
      [sampleCode [], sampleReview].flatMap (nodeFrames "t1" false []) ++ [] ++
        [finishedFrame "t1" c']
    c.next = some .reviewer ∧
      (startTask (sampleJs working) "" (runEvents (sampleJs working) sampleDumps working)).uiStatus
        = .submittedForReview ∧
      (startTask (sampleJs ended) "" (runEvents (sampleJs ended) sampleDumps ended)).streamEnded.uiStatus
        = .disconnected := by
  intro c c' frames working ended
  have hcode : Superstep (Preset.devReview.compiled [] false) {}
      ((Preset.devReview.compiled [] false).start "t1" sampleRequest) (sampleCode []) c :=
    ⟨World.agreeable, Graph.superstep_eq rfl rfl rfl rfl rfl rfl rfl⟩
  have hreview : Superstep (Preset.devReview.compiled [] false) {} c sampleReview c' :=
    ⟨World.agreeable, Graph.superstep_eq rfl rfl rfl rfl rfl rfl rfl⟩
  have hworking : ∀ f ∈ working, Readable (sampleJs working) sampleDumps f :=
    readable_sampleJs (by decide +kernel) (by decide +kernel)
  have hended : ∀ f ∈ ended, Readable (sampleJs ended) sampleDumps f :=
    readable_sampleJs (by decide +kernel) (by decide +kernel)
  refine ⟨rfl, ?_, ?_⟩
  · exact ((header_follows_run (streams_of_chain (.single hcode)) "").1 .reviewer rfl []
      (List.forall_mem_nil _) fun f hf _ => hworking f hf).1
  · exact ((header_follows_run (streams_of_chain ((Run.single hcode).snoc hreview)) "").2 []
      (List.forall_mem_nil _) fun f hf _ => hended f hf).1

end AgentRoom
