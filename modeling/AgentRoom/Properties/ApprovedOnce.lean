import AgentRoom.Properties.ToolDecisions
import AgentRoom.Lib.Reexecution

set_option autoImplicit false

/-! # How often an approved call runs

A gated tool node is executed from its start for every decision, and every execution starts
the bodies of all calls approved so far. A call that is approved while others wait for their
decision therefore runs again for each of them.
-/

namespace AgentRoom

open Transition Reexecution

/-! ## Histories of one batch of calls -/

/-- The tool's body starts: its arguments are not refused before. -/
def World.startsBody (w : World) (call : ToolCall) : Bool :=
  match w.tool call with
  | .invalidArgs _ => false
  | .returned _ | .raised _ => true

/-- What happens to a batch: its tool node is executed, or a call is decided. -/
inductive GateAction
  | executed (w : World) (e : StepLog)
  | decided (d : Decision)

/-- One execution of the gated tool node, or one `resume(…, at_node="tool_call")`. Whether a
tool accepts its arguments depends on the call only. -/
inductive GateStep (g : Graph) (b : Bindings) (accepts : ToolCall → Bool) :
    Config → GateAction → Config → Prop
  | executed {w : World} {e : StepLog} {c c' : Config} : w.startsBody = accepts →
      e.node = .tools .developer → g.superstep b w c = .ok (e, c') →
      GateStep g b accepts c (.executed w e) c'
  | decided {d : Decision} {c c' : Config} : c.interrupt.isSome →
      g.beginResume c d .toolCall = .ok c' → GateStep g b accepts c (.decided d) c'

/-- The bodies that were executed, once for every execution. -/
def bodiesRun (h : List GateAction) : List ToolCall :=
  h.flatMap (fun a => match a with
    | .executed w e => e.run.toolRuns.filter w.startsBody
    | .decided _ => [])

/-- The decisions, in order. -/
def recorded (h : List GateAction) : List Decision :=
  h.filterMap (fun a => match a with
    | .executed _ _ => none
    | .decided d => some d)

/-- A message's calls are about to enter the gated tool node. -/
structure Config.EntersGate (c : Config) : Prop where
  next : c.next = some (.tools .developer)
  undecided : c.resumes = []
  awake : c.interrupt = none

/-- Every approved call ran once and no other call ran, and each call has one answer. A call of a
tool the node does not have, or whose arguments the tool refuses, has no body to run. -/
structure RanOnce (tools : List Tool) (accepts : ToolCall → Bool) (c : Config)
    (h : List GateAction) (c' : Config) : Prop where
  bodies : (bodiesRun h).Perm
    ((approvedCalls tools (pendingCalls c.values.devMessages) (recorded h)).filter accepts)
  answers : ∃ answers : List ToolMessage,
    c'.values.devMessages = c.values.devMessages ++ answers.map .tool ∧
      answers.map ToolMessage.toolCallId = (pendingCalls c.values.devMessages).map ToolCall.id

@[simp] theorem bodiesRun_concat (h : List GateAction) (a : GateAction) :
    bodiesRun (h ++ [a]) = bodiesRun h ++ bodiesRun [a] := List.flatMap_append

@[simp] theorem recorded_concat (h : List GateAction) (a : GateAction) :
    recorded (h ++ [a]) = recorded h ++ recorded [a] := List.filterMap_append

@[simp] theorem bodiesRun_executed (w : World) (e : StepLog) :
    bodiesRun [.executed w e] = e.run.toolRuns.filter w.startsBody := by
  simp [bodiesRun]

@[simp] theorem bodiesRun_decided (d : Decision) : bodiesRun [.decided d] = [] := rfl

@[simp] theorem recorded_executed (w : World) (e : StepLog) : recorded [.executed w e] = [] := rfl

@[simp] theorem recorded_decided (d : Decision) : recorded [.decided d] = [d] := rfl

/-! ## What an execution starts -/

/-- More decisions approve more calls. -/
theorem approvedCalls_mono (tools : List Tool) (calls : List ToolCall) {ds ds' : List Decision}
    (h : ds <+: ds') : approvedCalls tools calls ds <+: approvedCalls tools calls ds' := by
  obtain ⟨more, rfl⟩ := h
  have hzip : calls.zip ds <+: calls.zip (ds ++ more) := by
    induction calls generalizing ds with
    | nil => simp
    | cons call calls ih =>
        cases ds with
        | nil => simp
        | cons d ds => simpa using ih
  exact (hzip.filter _).map _

/-- No call is approved before the first decision. -/
@[simp] theorem approvedCalls_nil (tools : List Tool) (calls : List ToolCall) :
    approvedCalls tools calls [] = [] := by
  simp [approvedCalls]

/-- The bodies that an execution with the decisions `ds` starts. -/
def startedBodies (tools : List Tool) (accepts : ToolCall → Bool) (calls : List ToolCall)
    (ds : List Decision) : List ToolCall :=
  (approvedCalls tools calls ds).filter accepts

theorem startedBodies_mono (tools : List Tool) (accepts : ToolCall → Bool)
    (calls : List ToolCall) {ds ds' : List Decision} (h : ds <+: ds') :
    startedBodies tools accepts calls ds <+: startedBodies tools accepts calls ds' :=
  (approvedCalls_mono tools calls h).filter _

/-- Nothing starts exactly when no decision approves a call that has a body. -/
theorem startedBodies_eq_nil_iff {tools : List Tool} {accepts : ToolCall → Bool}
    {calls : List ToolCall} {ds : List Decision} :
    startedBodies tools accepts calls ds = [] ↔
      ∀ q ∈ calls.zip ds, classifyDecision q.2 = .approve → hasTool tools q.1 = true →
        accepts q.1 = false := by
  simp only [startedBodies, approvedCalls, List.filter_eq_nil_iff, List.mem_map, List.mem_filter,
    Bool.and_eq_true, beq_iff_eq, Bool.not_eq_true]
  constructor
  · intro h q hq hd ht
    exact h q.1 ⟨q, ⟨hq, hd, ht⟩, rfl⟩
  · rintro h call ⟨q, ⟨hq, hd, ht⟩, rfl⟩
    exact h q hq hd ht

/-! ## The invariant of a batch -/

/-- How far a batch is: its node waits for an execution, asks about a call, or is done. -/
inductive GateState (tools : List Tool) (accepts : ToolCall → Bool) (c : Config) :
    List GateAction → Config → Prop
  | waiting {h : List GateAction} {c' : Config} :
      c'.next = c.next → c'.values = c.values → c'.resumes = recorded h → c'.interrupt = none →
      (recorded h).length ≤ (pendingCalls c.values.devMessages).length →
      bodiesRun h = started (startedBodies tools accepts (pendingCalls c.values.devMessages))
        (recorded h) (recorded h).length → GateState tools accepts c h c'
  | asking {h : List GateAction} {c' : Config} :
      c'.next = c.next → c'.values = c.values → c'.resumes = recorded h → c'.interrupt.isSome →
      (recorded h).length < (pendingCalls c.values.devMessages).length →
      bodiesRun h = started (startedBodies tools accepts (pendingCalls c.values.devMessages))
        (recorded h) ((recorded h).length + 1) → GateState tools accepts c h c'
  | done {h : List GateAction} {c' : Config} :
      c'.next = some .developer → c'.interrupt = none →
      (recorded h).length = (pendingCalls c.values.devMessages).length →
      bodiesRun h = started (startedBodies tools accepts (pendingCalls c.values.devMessages))
        (recorded h) ((recorded h).length + 1) →
      (∃ answers : List ToolMessage,
        c'.values.devMessages = c.values.devMessages ++ answers.map .tool ∧
        answers.map ToolMessage.toolCallId = (pendingCalls c.values.devMessages).map ToolCall.id) →
      GateState tools accepts c h c'

section Batch

variable {p : Preset} {tools : List Tool} {b : Bindings} {accepts : ToolCall → Bool}
  {c c' : Config} {h : List GateAction}

/-- An execution of the node takes a waiting batch one step on. -/
theorem GateState.executed {c₁ c₂ : Config} {w : World} {e : StepLog}
    (hg : GateState tools accepts c h c₁) (hw : w.startsBody = accepts)
    (hnode : e.node = .tools .developer)
    (hs : (p.compiled tools true).superstep b w c₁ = .ok (e, c₂)) :
    GateState tools accepts c (h ++ [.executed w e]) c₂ := by
  have hnext : c₁.next = some (.tools .developer) := by
    rw [Graph.superstep_node hs, hnode]
  have hrec : recorded (h ++ [.executed w e]) = recorded h := by simp
  obtain ⟨hruns, hout⟩ := Preset.gated_superstep hnext hs
  cases hg with
  | asking _ _ _ hi =>
      -- an interrupted node is not executed
      obtain ⟨-, -, -, hawake, -⟩ := Graph.superstep_inv hs
      simp [hawake] at hi
  | done hdev =>
      rw [hnext] at hdev
      cases hdev
  | waiting hn hv hr hi hle hbodies =>
      rw [hv, hr] at hruns
      have hbodies' : bodiesRun (h ++ [.executed w e])
          = started (startedBodies tools accepts (pendingCalls c.values.devMessages)) (recorded h)
              ((recorded h).length + 1) :=
        calc bodiesRun (h ++ [.executed w e])
            = bodiesRun h ++ e.run.toolRuns.filter w.startsBody := by simp
          _ = started (startedBodies tools accepts (pendingCalls c.values.devMessages)) (recorded h)
                ((recorded h).length + 1) := by
              rw [started_succ, hbodies, hruns, hw, List.take_length, startedBodies]
      rcases hout with ⟨call, -, hcall, hnext₂, hv₂, hr₂, hget⟩ |
        ⟨-, hdev, answers, hall, hanswers, -, hmsgs⟩
      · rw [hv, hr] at hget
        have hlt := (List.getElem?_eq_some_iff.mp hget).1
        refine .asking (hnext₂.trans hn) (hv₂.trans hv) ?_ ?_ ?_ ?_
        · rw [hrec, hr₂, hr]
        · rw [hcall, Option.isSome_some]
        · rw [hrec]
          exact hlt
        · rw [hrec]
          exact hbodies'
      · rw [hv, hr] at hall hanswers
        have hge : (pendingCalls c.values.devMessages).length ≤ (recorded h).length :=
          List.getElem?_eq_none_iff.mp hall
        have hawake : c₂.interrupt = none := by
          obtain ⟨-, -, -, -, -, -, -, -, ⟨call, -, -, rfl⟩ | ⟨-, -, next, -, rfl⟩⟩ :=
            Graph.superstep_inv hs
          · rw [hnext] at hdev
            cases hdev
          · rfl
        refine .done hdev hawake ?_ ?_ ⟨answers, ?_, answers_toolCallId hge hanswers⟩
        · rw [hrec]
          omega
        · rw [hrec]
          exact hbodies'
        · rw [hmsgs, hv]

/-- A decision lets the node be executed again. -/
theorem GateState.decided {g : Graph} {c₁ c₂ : Config} {d : Decision}
    (hg : GateState tools accepts c h c₁) (hi : c₁.interrupt.isSome)
    (hs : g.beginResume c₁ d .toolCall = .ok c₂) :
    GateState tools accepts c (h ++ [.decided d]) c₂ := by
  have hc₂ : { c₁ with resumes := c₁.resumes ++ [d], interrupt := none } = c₂ := Except.ok.inj hs
  have hrec : recorded (h ++ [.decided d]) = recorded h ++ [d] := by simp
  cases hg with
  | waiting _ _ _ hnone => simp [hnone] at hi
  | done _ hnone => simp [hnone] at hi
  | asking hn hv hr _ hlt hbodies =>
      subst hc₂
      refine .waiting hn hv ?_ rfl ?_ ?_
      · rw [hrec, hr]
      · rw [hrec, List.length_append, List.length_singleton]
        omega
      · calc bodiesRun (h ++ [.decided d]) = bodiesRun h := by simp
          _ = started (startedBodies tools accepts (pendingCalls c.values.devMessages)) (recorded h)
                ((recorded h).length + 1) := hbodies
          _ = started (startedBodies tools accepts (pendingCalls c.values.devMessages))
                (recorded (h ++ [.decided d])) (recorded (h ++ [.decided d])).length := by
              rw [hrec, List.length_append, List.length_singleton, started_concat _ _ _ le_rfl]

/-- **The invariant of a batch.** -/
theorem gateState_of_run (hc : c.EntersGate)
    (hrun : Run (GateStep (p.compiled tools true) b accepts) c h c') :
    GateState tools accepts c h c' := by
  refine hrun.log_invariant (fun h c₁ a c₂ hg hs => ?_) ?_
  · cases hs with
    | executed hw hnode hstep => exact hg.executed hw hnode hstep
    | decided hi hres => exact hg.decided hi hres
  · exact .waiting rfl rfl hc.undecided hc.awake (Nat.zero_le _) rfl

/-- A finished batch has a decision and an answer for every call, and every decision but the last
has made its calls run again. -/
theorem finished_of_run (hc : c.EntersGate)
    (hrun : Run (GateStep (p.compiled tools true) b accepts) c h c')
    (hfin : c'.next ≠ some (.tools .developer)) :
    (recorded h).length = (pendingCalls c.values.devMessages).length ∧
      bodiesRun h = started (startedBodies tools accepts (pendingCalls c.values.devMessages))
        (recorded h) ((recorded h).length + 1) ∧
      ∃ answers : List ToolMessage,
        c'.values.devMessages = c.values.devMessages ++ answers.map .tool ∧
        answers.map ToolMessage.toolCallId
          = (pendingCalls c.values.devMessages).map ToolCall.id := by
  cases gateState_of_run hc hrun with
  | waiting hn => exact absurd (hn.trans hc.next) hfin
  | asking hn => exact absurd (hn.trans hc.next) hfin
  | done _ _ hlen hbodies hanswers => exact ⟨hlen, hbodies, hanswers⟩

/-- Every list of decisions takes a batch through its gate, if the tools answer. -/
theorem exists_batch {w : World} (hp : p.usesTools = true) (hc : c.EntersGate)
    (hw : w.startsBody = accepts) (hraises : w.raises = none) {ds : List Decision}
    (hlen : ds.length = (pendingCalls c.values.devMessages).length) {answers : List ToolMessage}
    (hok : ((pendingCalls c.values.devMessages).zip ds).mapM
      (fun q => answerCall tools b w q.1 q.2) = .ok answers) :
    ∃ h c', Run (GateStep (p.compiled tools true) b accepts) c h c' ∧ recorded h = ds ∧
      c'.next ≠ some (.tools .developer) := by
  have himpl : (p.compiled tools true).impl (.tools .developer)
      = some (.approvalToolNode tools) := by
    cases p <;> first | rfl | contradiction
  -- the node asks about one call after the other
  have hpart : ∀ n, n ≤ ds.length → ∃ h, recorded h = ds.take n ∧
      Run (GateStep (p.compiled tools true) b accepts) c h { c with resumes := ds.take n } := by
    intro n
    induction n with
    | zero =>
        intro _
        refine ⟨[], rfl, ?_⟩
        have heq : { c with resumes := ds.take 0 } = c := by
          rw [List.take_zero, ← hc.undecided]
        rw [heq]
        exact .refl c
    | succ n ih =>
        intro hn
        obtain ⟨h, hrec, hrun⟩ := ih (by omega)
        have hlt : n < (pendingCalls c.values.devMessages).length := by omega
        have hcall : (pendingCalls c.values.devMessages)[(ds.take n).length]?
            = some (pendingCalls c.values.devMessages)[n] := by
          rw [List.length_take_of_le (by omega), List.getElem?_eq_getElem hlt]
        have hgate : (NodeImpl.approvalToolNode tools).run b w c.values (ds.take n) = _ :=
          approvalToolNode_interrupt hcall tools b w
        have hasked := Graph.superstep_interrupted (c := { c with resumes := ds.take n })
          hc.next hc.awake hraises himpl hgate rfl
        have hdecided : (p.compiled tools true).beginResume
            { c with
              resumes := ds.take n
              interrupt := some (pendingCalls c.values.devMessages)[n] } ds[n] .toolCall
            = .ok { c with resumes := ds.take (n + 1) } := by
          rw [List.take_succ_eq_append_getElem (by omega), hc.awake]
          rfl
        refine ⟨h ++ [.executed w _] ++ [.decided ds[n]], ?_,
          (hrun.snoc (.executed hw rfl hasked)).snoc (.decided rfl hdecided)⟩
        rw [recorded_concat, recorded_concat, hrec, List.take_succ_eq_append_getElem (by omega)]
        simp
  obtain ⟨h, hrec, hrun⟩ := hpart ds.length le_rfl
  rw [List.take_length] at hrec hrun
  have hall : (pendingCalls c.values.devMessages)[ds.length]? = none :=
    List.getElem?_eq_none_iff.mpr (by omega)
  have hgate : (NodeImpl.approvalToolNode tools).run b w c.values ds = .ok
      { toolRuns := approvedCalls tools (pendingCalls c.values.devMessages) ds
        update := { devMessages := answers.map .tool } } := by
    simp only [NodeImpl.run, approvalToolNode, hall]
    rw [Fallible.ok_bind hok]
  have hfinished := Graph.superstep_eq (c := { c with resumes := ds }) hc.next hc.awake hraises
    himpl hgate rfl (Preset.route_tools _ _ _ hp)
  exact ⟨_, _, hrun.snoc (.executed hw rfl hfinished), by simp [hrec], by simp⟩

/-- **Approved calls run once** exactly when no decision but the one on the last call approves a
call that has a body: the bodies that start early run again for every later decision. -/
theorem approved_calls_run_once_iff (hc : c.EntersGate)
    (hrun : Run (GateStep (p.compiled tools true) b accepts) c h c')
    (hfin : c'.next ≠ some (.tools .developer)) :
    RanOnce tools accepts c h c' ↔
      ∀ q ∈ (pendingCalls c.values.devMessages).zip (recorded h).dropLast,
        classifyDecision q.2 = .approve → hasTool tools q.1 = true → accepts q.1 = false := by
  obtain ⟨-, hbodies, hanswers⟩ := finished_of_run hc hrun hfin
  rw [← startedBodies_eq_nil_iff,
    ← started_perm_iff (startedBodies_mono tools accepts _) (by simp [startedBodies]), ← hbodies]
  constructor
  · intro honce
    exact honce.bodies
  · intro hperm
    exact ⟨hperm, hanswers⟩

end Batch

/-! ## Two calls -/

/-- A call of a registered tool. -/
def readCall (id : String) : ToolCall := { name := "glob", id := id }

/-- A developer's first reply enters the gate, and decisions on all its calls let it finish. -/
theorem exists_decided_batch (tools : List Tool) {calls : List ToolCall} (hne : calls ≠ [])
    (hglob : ∀ call ∈ calls, call.name = "glob") (ds : List Decision)
    (hlen : ds.length = calls.length) :
    ∃ l c h c', Run (Superstep (Preset.fullReact.compiled tools true) {})
        ((Preset.fullReact.compiled tools true).start "task" { title := "t", description := "d" })
        l c ∧
      c.EntersGate ∧ pendingCalls c.values.devMessages = calls ∧
      Run (GateStep (Preset.fullReact.compiled tools true) {} (fun _ => true)) c h c' ∧
      recorded h = ds ∧ c'.next ≠ some (.tools .developer) := by
  obtain ⟨l, s, hrun, hcalls, -⟩ :=
    entered_history tools "task" { title := "t", description := "d" } hne
  have henters : Config.EntersGate { values := s, next := some (.tools .developer) } :=
    ⟨rfl, rfl, rfl⟩
  -- An agreeable world lets every approved `glob` return; a denial is answered at once.
  have hanswer : ∀ q ∈ calls.zip ds, ∃ t, answerCall tools {} World.agreeable q.1 q.2 = .ok t := by
    rintro ⟨call, d⟩ hq
    have hunchecked : checkToolCall {} call = .ok () := by
      simp [checkToolCall, ToolCall.checkedText, hglob call (List.of_mem_zip hq).1]
    unfold answerCall
    cases classifyDecision d with
    | deny message => exact ⟨_, rfl⟩
    | approve =>
        simp only [executeApproved, runTool, World.agreeable, hunchecked]
        split <;> exact ⟨_, rfl⟩
  obtain ⟨answers, hok⟩ := Fallible.exists_mapM_ok hanswer
  have hstarts : World.agreeable.startsBody = fun _ => true := rfl
  obtain ⟨h, c', hbatch, hrec, hfin⟩ := exists_batch (p := .fullReact) (b := {}) rfl henters hstarts
    rfl (by rw [hcalls, hlen]) (by rw [hcalls]; exact hok)
  exact ⟨l, _, h, c', hrun, henters, hcalls, hbatch, hrec, hfin⟩

/-- The first of two calls is denied and the second approved: the node is executed three times,
and the body of the second runs once. -/
theorem approved_calls_run_once_denied :
    ∃ l c h c', Run (Superstep (Preset.fullReact.compiled approvalServer.devTools true) {})
        ((Preset.fullReact.compiled approvalServer.devTools true).start "task"
          { title := "t", description := "d" }) l c ∧
      c.EntersGate ∧ pendingCalls c.values.devMessages = [readCall "1", readCall "2"] ∧
      Run (GateStep (Preset.fullReact.compiled approvalServer.devTools true) {} (fun _ => true))
        c h c' ∧
      recorded h = [.str "deny", .str "approve"] ∧ c'.next ≠ some (.tools .developer) ∧
      bodiesRun h = [readCall "2"] ∧ RanOnce approvalServer.devTools (fun _ => true) c h c' := by
  obtain ⟨l, c, h, c', hrun, henters, hcalls, hbatch, hrec, hfin⟩ :=
    exists_decided_batch approvalServer.devTools
      (show [readCall "1", readCall "2"] ≠ [] by simp) (by simp [readCall])
      [.str "deny", .str "approve"] rfl
  obtain ⟨-, hbodies, -⟩ := finished_of_run henters hbatch hfin
  have honce : bodiesRun h = [readCall "2"] := by
    rw [hbodies, hcalls, hrec]
    rfl
  refine ⟨l, c, h, c', hrun, henters, hcalls, hbatch, hrec, hfin, honce,
    (approved_calls_run_once_iff henters hbatch hfin).mpr ?_⟩
  rw [hrec, hcalls]
  decide

/-- A message with two calls, both approved: the body of the first runs twice. -/
theorem approved_call_runs_twice :
    ∃ l c h c', Run (Superstep (Preset.fullReact.compiled approvalServer.devTools true) {})
        ((Preset.fullReact.compiled approvalServer.devTools true).start "task"
          { title := "t", description := "d" }) l c ∧
      c.EntersGate ∧ pendingCalls c.values.devMessages = [readCall "1", readCall "2"] ∧
      Run (GateStep (Preset.fullReact.compiled approvalServer.devTools true) {} (fun _ => true))
        c h c' ∧
      recorded h = [.str "approve", .str "approve"] ∧ c'.next ≠ some (.tools .developer) ∧
      bodiesRun h = [readCall "1", readCall "1", readCall "2"] ∧
      ¬ RanOnce approvalServer.devTools (fun _ => true) c h c' := by
  obtain ⟨l, c, h, c', hrun, henters, hcalls, hbatch, hrec, hfin⟩ :=
    exists_decided_batch approvalServer.devTools
      (show [readCall "1", readCall "2"] ≠ [] by simp) (by simp [readCall])
      [.str "approve", .str "approve"] rfl
  obtain ⟨-, hbodies, -⟩ := finished_of_run henters hbatch hfin
  have htwice : bodiesRun h = [readCall "1", readCall "1", readCall "2"] := by
    rw [hbodies, hcalls, hrec]
    rfl
  refine ⟨l, c, h, c', hrun, henters, hcalls, hbatch, hrec, hfin, htwice, ?_⟩
  intro honce
  have hlen := honce.bodies.length_eq
  rw [htwice, hcalls, hrec] at hlen
  revert hlen
  decide

end AgentRoom
