import AgentRoom.Properties.ArtifactRounds
import AgentRoom.Properties.EventRoundTrip
import AgentRoom.Properties.Reconnect
import AgentRoom.Server.Produce
import AgentRoom.Web.TaskStore
import Mathlib.Data.List.Nodup

set_option autoImplicit false

/-! # The live view and the recovered view

A client that followed a run has its round and its decision from the reviewer's `node_end`, where
the round is the one already counted. A client that opens the finished task rebuilds them from
the snapshot: the round from the artifacts, which are dated before the reviewer counts, and the
decision from `review`, which the planner's gate and the supervisor write too. So the two views
agree on exactly the runs in which no node wrote a review (`views_agree_iff`).
-/

namespace AgentRoom

open Transition (Run)
open Web Web.TaskStore

namespace Web

variable {js : Js} {dumps : Value → Text}

/-! ## Decoding the frames -/

/-- The language reads the data of a frame back, and its integers are exact. -/
structure Readable (js : Js) (dumps : Value → Text) (frame : Frame) : Prop where
  readsBack : js.ReadsBack dumps frame.data
  ints : ∀ n ∈ frame.data.ints, n.natAbs < 2 ^ 53

/-- The decoded events of a run, whose frames are numbered from 0 on. -/
def runEvents (js : Js) (dumps : Value → Text) (frames : List Frame) : List AgentEvent :=
  decodedEvents js dumps frames.zipIdx

/-- The number of a frame is not looked at. -/
theorem runEvents_eq (js : Js) (dumps : Value → Text) (frames : List Frame) :
    runEvents js dumps frames =
      frames.filterMap fun frame => normalizeAgentEvent js (wireFrame dumps (frame, 0)) := by
  have hnumber : (fun numbered : Frame × Nat => normalizeAgentEvent js (wireFrame dumps numbered))
      = (fun frame => normalizeAgentEvent js (wireFrame dumps (frame, 0))) ∘ Prod.fst := rfl
  rw [runEvents, decodedEvents, hnumber, ← List.filterMap_map, List.zipIdx_map_fst]

@[simp] theorem runEvents_nil : runEvents js dumps [] = [] := rfl

@[simp] theorem runEvents_append (frames later : List Frame) :
    runEvents js dumps (frames ++ later) =
      runEvents js dumps frames ++ runEvents js dumps later := by
  simp only [runEvents_eq, List.filterMap_append]

theorem runEvents_singleton (frame : Frame) : runEvents js dumps [frame] =
    (normalizeAgentEvent js (wireFrame dumps (frame, 0))).toList := by
  rw [runEvents_eq]
  cases h : normalizeAgentEvent js (wireFrame dumps (frame, 0)) <;> simp [h]

/-- Frames named after asides become asides. -/
theorem isAside_of_mem_runEvents {frames : List Frame}
    (h : ∀ frame ∈ frames, frame.event ∈ asideTypes) {event : AgentEvent}
    (hevent : event ∈ runEvents js dumps frames) : event.body.isAside = true := by
  rw [runEvents_eq] at hevent
  obtain ⟨frame, hframe, hshown⟩ := List.mem_filterMap.mp hevent
  rw [normalizeAgentEvent_isAside hshown, String.ofList_toList]
  exact decide_eq_true (h frame hframe)

/-- A message of the API is decoded to what the client sees of it. -/
theorem runEvents_formattedFrame {u : UiEvent}
    (h : Readable js dumps (formattedFrame u.dict)) :
    runEvents js dumps [formattedFrame u.dict] = u.seen.toList := by
  rw [runEvents_singleton, UiEvent.normalizeAgentEvent_dict h.readsBack h.ints]

/-- The first frame of a stream shows nothing. -/
theorem runEvents_startedFrame (taskId : String) :
    runEvents js dumps [startedFrame taskId] = [] := by
  rw [runEvents_singleton]
  unfold normalizeAgentEvent
  cases js.parse (wireFrame dumps (startedFrame taskId, 0)).data with
  | none => rfl
  | some decoded => simp [wireFrame, startedFrame, eventBody]

/-- A result has none of the keys that wrap it elsewhere. -/
theorem get_modelDump_foreign (r : TaskResult) {key : String}
    (hkey : key ∈ ["payload", "data", "result", "role"]) : Record.get r.modelDump key = none := by
  simp only [List.mem_cons, List.not_mem_nil, or_false] at hkey
  rcases hkey with rfl | rfl | rfl | rfl <;> rfl

/-- A result that is fetched is taken as it is. -/
theorem normalizeTaskResult_modelDump (r : TaskResult) :
    normalizeTaskResult (.dict r.modelDump) = r.modelDump := by
  have hroot : asRecord (some (.dict r.modelDump)) = r.modelDump := rfl
  have hnested : asRecord (Record.get r.modelDump "result") = [] := by
    rw [get_modelDump_foreign r (show "result" ∈ _ by decide)]
    rfl
  rw [normalizeTaskResult, hroot, hnested]
  simp [Record.get]

/-- The last frame of a stream carries the result itself. -/
theorem runEvents_finishedFrame {taskId : String} {c : Config}
    (h : Readable js dumps (finishedFrame taskId c)) :
    runEvents js dumps [finishedFrame taskId c] =
      [⟨none, some taskId, .dict (materializeResult taskId c).modelDump,
        .taskFinished (materializeResult taskId c).modelDump⟩] := by
  have hforeign := fun key => @get_modelDump_foreign (materializeResult taskId c) key
  have htask : Record.get (materializeResult taskId c).modelDump "task_id"
      = some (.str taskId) := rfl
  have hevent : (wireFrame dumps (finishedFrame taskId c, 0)).event
      = some "task_finished".toList := rfl
  have hparse : js.parse (wireFrame dumps (finishedFrame taskId c, 0)).data
      = some (.dict (materializeResult taskId c).modelDump) := h.readsBack.parse_dumps h.ints
  rw [runEvents_singleton, normalizeAgentEvent, hparse, hevent]
  generalize (materializeResult taskId c).modelDump = result at hforeign htask ⊢
  have hresult : asRecord (some (.dict result)) = result := rfl
  simp [hresult, hforeign "payload", hforeign "data", hforeign "role", hforeign "result", htask,
    nullish, asRole, asString, eventBody]

/-! ## The live view -/

/-- What the client shows after `reviews` reviews, as far as the two views can differ. -/
structure LiveView (reviews : Nat) (s : TaskStore) : Prop where
  round : s.round = reviews
  /-- Only a review changes the decision. -/
  decision : reviews = 0 → s.reviewDecision = none

theorem LiveView.reset (instruction : String) : LiveView 0 (reset instruction) where
  round := Nat.cast_zero.symm
  decision _ := rfl

/-- Asides change neither the round nor the decision. -/
theorem LiveView.aside {reviews : Nat} {s : TaskStore} (h : LiveView reviews s)
    {events : List AgentEvent} (haside : ∀ event ∈ events, event.body.isAside = true) :
    LiveView reviews (s.applyEvents js events) := by
  induction events generalizing s with
  | nil => exact h
  | cons event rest ih =>
      have hone : LiveView reviews (s.applyEvent js event) := by
        have hbody := haside event List.mem_cons_self
        obtain ⟨role, taskId, raw, body⟩ := event
        cases body with
        | nodeStart | nodeEnd summary | taskError error | taskFinished result => cases hbody
        | _ => cases role <;> exact ⟨h.round, h.decision⟩
      exact ih hone fun event hevent => haside event (List.mem_cons_of_mem _ hevent)

theorem LiveView.nodeStart {reviews : Nat} {s : TaskStore} (h : LiveView reviews s) {role : Role}
    {taskId : Option String} {raw : Value} :
    LiveView reviews (s.applyEvent js ⟨some role, taskId, raw, .nodeStart⟩) := by
  refine ⟨h.round, fun hzero => ?_⟩
  show (if role = .developer ∧ asString s.reviewDecision = some "revision_required" then none
    else s.reviewDecision) = none
  rw [h.decision hzero, ite_self]

theorem LiveView.nodeEnd {reviews : Nat} {s : TaskStore} (h : LiveView reviews s) {role : Role}
    (hrole : role ≠ .reviewer) {taskId : Option String} {raw : Value} {summary : Record} :
    LiveView reviews (s.applyEvent js ⟨some role, taskId, raw, .nodeEnd summary⟩) := by
  constructor
  · show (if role = .reviewer then s.nextRound js summary else s.round) = reviews
    rw [if_neg hrole, h.round]
  · intro hzero
    show (if role = .reviewer then _ else s.reviewDecision) = none
    rw [if_neg hrole, h.decision hzero]

/-- The reviewer's summary has the round it has counted. -/
theorem liveView_reviewer {s : TaskStore} {taskId : Option String} {raw : Value} {summary : Record}
    {reviews : Nat} (hround : summary.get "round" = some (.int reviews))
    (hnumeric : js.numeric (.int reviews) = some ((reviews : ℤ) : ℚ)) (hpos : 0 < reviews) :
    LiveView reviews (s.applyEvent js ⟨some .reviewer, taskId, raw, .nodeEnd summary⟩) := by
  refine ⟨?_, fun hzero => absurd hzero hpos.ne'⟩
  show s.nextRound js summary = _
  simp only [nextRound, hround, nullish, hnumeric, Option.getD_some, Int.cast_natCast]

end Web

/-! ## The frames of a node -/

/-- The role under which a node is announced. -/
def NodeName.uiRole : NodeName → Option UiRole
  | planner => some .planner
  | developer => some .developer
  | reviewer => some .reviewer
  | delivery => some .delivery
  | verify | supervisor | tools _ => none

theorem NodeName.text_of_uiRole {n : NodeName} {r : UiRole} (h : n.uiRole = some r) :
    n.text = r.text := by
  cases n <;> cases h <;> rfl

theorem Frame.mem_asideTypes {f : Frame} (h : f.isAside = true) : f.event ∈ asideTypes := by
  have hmem := of_decide_eq_true h
  simp only [List.mem_cons, List.not_mem_nil, or_false] at hmem
  rcases hmem with h | h | h | h <;> rw [h] <;> decide

/-- A role is announced when its node starts, and again when it ends. -/
theorem nodeFrames_of_uiRole {e : StepLog} {r : UiRole} (hrole : e.node.uiRole = some r)
    (hi : e.run.interrupt.isSome = false) (taskId : String) (dumped : Bool) (calls : List Frame) :
    nodeFrames taskId dumped calls e =
      [formattedFrame (UiEvent.dict ⟨some taskId, .nodeStart r⟩)] ++ calls ++
        [formattedFrame (UiEvent.dict ⟨some taskId,
          .nodeEnd r (summarizeNodeOutput r.text e.run.update dumped)⟩)] := by
  rw [nodeFrames, NodeName.text_of_uiRole hrole, hi, if_neg Bool.false_ne_true]
  cases r <;> rfl

/-- The end of a verifier, a supervisor or a tool node is an aside or nothing. -/
theorem eventFrames_chainEnd {name : String}
    (hname : name ∈ ["verify", "supervisor", "developer_tools"]) (taskId : String)
    (output : Update) (dumped : Bool) :
    ∀ f ∈ eventFrames { data := .chainEnd (some output) dumped, name, taskId := some taskId },
      f.event ∈ asideTypes := by
  simp only [List.mem_cons, List.not_mem_nil, or_false] at hname
  rcases hname with rfl | rfl | rfl
  · cases hv : output.verification.join with
    | none => simp [eventFrames, formatStreamEvent, roleNames, hv]
    | some v => simp [eventFrames, formatStreamEvent, roleNames, hv, formattedFrame, asideTypes,
        Value.asStr?]
  · cases hd : output.stuckDecision with
    | none => simp [eventFrames, formatStreamEvent, roleNames, hd]
    | some decision => simp [eventFrames, formatStreamEvent, roleNames, hd, formattedFrame,
        asideTypes, Value.asStr?]
  · simp [eventFrames, formatStreamEvent, roleNames]

/-- The other nodes show no more than asides. -/
theorem nodeFrames_of_not_uiRole {e : StepLog} (hrole : e.node.uiRole = none)
    (htools : ∀ n, e.node = .tools n → n = .developer) {calls : List Frame}
    (hcalls : ∀ f ∈ calls, f.isAside = true) (taskId : String) (dumped : Bool) :
    ∀ f ∈ nodeFrames taskId dumped calls e, f.event ∈ asideTypes := by
  have hname : e.node.text ∈ ["verify", "supervisor", "developer_tools"] := by
    cases hn : e.node with
    | tools n =>
        rw [htools n hn]
        decide
    | verify | supervisor => decide
    | planner | developer | reviewer | delivery =>
        rw [hn] at hrole
        cases hrole
  have hstart : eventFrames { data := .chainStart, name := e.node.text, taskId := some taskId }
      = [] := by
    simp only [List.mem_cons, List.not_mem_nil, or_false] at hname
    rcases hname with h | h | h <;> rw [h] <;> rfl
  intro f hf
  rw [nodeFrames, hstart, List.nil_append] at hf
  rcases List.mem_append.mp hf with hf | hf
  · exact Frame.mem_asideTypes (hcalls f hf)
  · split_ifs at hf
    · cases hf
    · exact eventFrames_chainEnd hname taskId e.run.update dumped f hf

/-! ## Along a run -/

section Along

variable {js : Js} {dumps : Value → Text}

/-- What the reviewer's end says. -/
theorem exists_summarize_reviewer {u : Update} {d : ReviewerDecision} {reviews : Nat}
    (hreview : u.review = some (some d)) (hround : u.revisionRound = some reviews)
    (dumped : Bool) :
    ∃ decision, summarizeNodeOutput UiRole.reviewer.text u dumped
      = [("decision", decision), ("round", .int reviews)] := by
  simp [summarizeNodeOutput, UiRole.text, UiRole.role, Role.text, hreview, hround, Value.ofInt]

theorem seen_nodeStart (taskId : Option String) (r : UiRole) :
    UiEvent.seen ⟨taskId, .nodeStart r⟩ =
      some ⟨some r.role, taskId, .dict (UiEvent.dict ⟨taskId, .nodeStart r⟩), .nodeStart⟩ := by
  cases r <;> rfl

theorem seen_nodeEnd (taskId : Option String) (r : UiRole) (summary : List (String × Value)) :
    UiEvent.seen ⟨taskId, .nodeEnd r summary⟩ =
      some ⟨some r.role, taskId, .dict (UiEvent.dict ⟨taskId, .nodeEnd r summary⟩),
        .nodeEnd summary⟩ := by
  cases r <;> rfl

/-- A node that is announced is not interrupted. -/
theorem Advances.awake_of_uiRole {p : Preset} {c c' : Config} {e : StepLog} {r : UiRole}
    (h : Advances p c e c') (hrole : e.node.uiRole = some r) :
    e.run.interrupt.isSome = false := by
  refine Bool.eq_false_iff.mpr fun hsome => ?_
  rw [h.interrupted hsome] at hrole
  cases hrole

/-- The events of a node that is announced: those of its calls, between its start and its end. -/
theorem runEvents_nodeFrames {e : StepLog} {r : UiRole} {taskId : String} {dumped : Bool}
    {calls : List Frame} (hrole : e.node.uiRole = some r)
    (hi : e.run.interrupt.isSome = false)
    (hread : ∀ f ∈ nodeFrames taskId dumped calls e, f.isAside = false → Readable js dumps f) :
    let summary := summarizeNodeOutput r.text e.run.update dumped
    let started : UiEvent := ⟨some taskId, .nodeStart r⟩
    let ended : UiEvent := ⟨some taskId, .nodeEnd r summary⟩
    Readable js dumps (formattedFrame ended.dict) ∧
      runEvents js dumps (nodeFrames taskId dumped calls e) =
        [⟨some r.role, some taskId, .dict started.dict, .nodeStart⟩] ++ runEvents js dumps calls ++
          [⟨some r.role, some taskId, .dict ended.dict, .nodeEnd summary⟩] := by
  rw [nodeFrames_of_uiRole hrole hi] at hread ⊢
  have hstart := hread _ (List.mem_append_left _ List.mem_cons_self) rfl
  have hend := hread _ (List.mem_append_right _ List.mem_cons_self) rfl
  refine ⟨hend, ?_⟩
  rw [runEvents_append, runEvents_append, runEvents_formattedFrame hstart,
    runEvents_formattedFrame hend, seen_nodeStart, seen_nodeEnd]
  rfl

/-- A node without a role neither counts a review nor shows one. -/
theorem Web.LiveView.unannounced {p : Preset} {c c' : Config} {e : StepLog} {s : TaskStore}
    (h : LiveView c.values.revisionRound s) (hstep : Advances p c e c')
    (hrole : e.node.uiRole = none) {taskId : String} {dumped : Bool} {calls : List Frame}
    (hcalls : ∀ f ∈ calls, f.isAside = true) :
    LiveView c'.values.revisionRound
      (s.applyEvents js (runEvents js dumps (nodeFrames taskId dumped calls e))) := by
  have hcontributes := hstep.contributes
  have hround : c'.values.revisionRound = c.values.revisionRound := by
    generalize he : e.node = n at hcontributes hrole
    cases hcontributes with
    | review => cases hrole
    | code => cases hrole
    | other _ _ _ hround => rw [hstep.revisionRound, hround, Option.getD_none]
  rw [hround]
  exact h.aside fun event hevent => isAside_of_mem_runEvents
    (nodeFrames_of_not_uiRole hrole hstep.tools hcalls taskId dumped) hevent

/-- **One superstep**: the live view keeps up with the reviews. -/
theorem Web.LiveView.nodeFrames {p : Preset} {c c' : Config} {e : StepLog} {s : TaskStore}
    (h : LiveView c.values.revisionRound s) (hstep : Advances p c e c') {taskId : String}
    {dumped : Bool} {calls : List Frame} (hcalls : ∀ f ∈ calls, f.isAside = true)
    (hread : ∀ f ∈ nodeFrames taskId dumped calls e, f.isAside = false → Readable js dumps f) :
    LiveView c'.values.revisionRound
      (s.applyEvents js (runEvents js dumps (nodeFrames taskId dumped calls e))) := by
  cases hrole : e.node.uiRole with
  | none => exact h.unannounced hstep hrole hcalls
  | some r =>
      obtain ⟨hend, hevents⟩ := runEvents_nodeFrames hrole (hstep.awake_of_uiRole hrole) hread
      rw [hevents, applyEvents_append, applyEvents_append, applyEvents_singleton,
        applyEvents_singleton]
      -- up to the end of the node nothing has changed
      have hworking (raw : Value) : LiveView c.values.revisionRound
          ((s.applyEvent js ⟨some r.role, some taskId, raw, .nodeStart⟩).applyEvents js
            (runEvents js dumps calls)) :=
        h.nodeStart.aside fun event hevent =>
          isAside_of_mem_runEvents (fun f hf => Frame.mem_asideTypes (hcalls f hf)) hevent
      have hcontributes := hstep.contributes
      generalize he : e.node = n at hcontributes hrole
      cases hcontributes with
      | review hreview hround =>
          cases hrole
          rw [hstep.revisionRound, hround, Option.getD_some]
          obtain ⟨decision, hsummary⟩ := exists_summarize_reviewer hreview hround dumped
          rw [hsummary] at hend ⊢
          refine liveView_reviewer rfl (hend.readsBack.numeric_int _ (hend.ints _ ?_))
            (Nat.succ_pos _)
          simp [formattedFrame, UiEvent.dict, UiBody.payload, Value.ints, Value.intsFields]
      | code _ hround =>
          cases hrole
          rw [hstep.revisionRound, hround, Option.getD_none]
          exact (hworking _).nodeEnd (by decide)
      | other hreviewer _ _ hround =>
          rw [hstep.revisionRound, hround, Option.getD_none]
          refine (hworking _).nodeEnd ?_
          cases n <;> cases hrole <;> first | decide | exact absurd rfl hreviewer

/-- What holds while a stream runs: the rounds are kept, a review is in the state once a node has
written one, and the live view keeps up. -/
structure Streaming (js : Js) (dumps : Value → Text) (p : Preset) (instruction : String)
    (l : List StepLog) (c : Config) (frames : List Frame) : Prop where
  rounds : RoundsKept p c
  review : (∀ e ∈ l, e.run.update.review = none) ↔ c.values.review = none
  unreviewed : c.values.review = none → c.values.revisionRound = 0
  live : (∀ f ∈ frames, f.isAside = false → Readable js dumps f) →
    LiveView c.values.revisionRound
      ((reset instruction).applyEvents js (runEvents js dumps frames))

/-- A node never takes a review back. -/
theorem Contributes.review_ne {s : TaskState} {u : Update} {n : NodeName}
    (h : Contributes s u n) : u.review ≠ some none := by
  cases h with
  | review hreview => simp [hreview]
  | code hreview => simp [hreview]
  | other _ _ hreview => exact hreview

/-- A node that writes no review does not count one. -/
theorem Contributes.round_of_review_none {s : TaskState} {u : Update} {n : NodeName}
    (h : Contributes s u n) (hnone : u.review = none) : u.revisionRound = none := by
  cases h with
  | review hreview => cases hnone.symm.trans hreview
  | code _ hround => exact hround
  | other _ _ _ hround => exact hround

/-- After a superstep there is no review if there was none and the node wrote none. -/
theorem Advances.review_eq_none_iff {p : Preset} {c c' : Config} {e : StepLog}
    (h : Advances p c e c') :
    c'.values.review = none ↔ c.values.review = none ∧ e.run.update.review = none := by
  rw [h.review]
  have hne := h.contributes.review_ne
  cases hreview : e.run.update.review with
  | none => simp
  | some review =>
      cases review with
      | none => exact absurd hreview hne
      | some d => simp

theorem Streaming.step {p : Preset} {tools : List Tool} {approval : Bool} {b : Bindings}
    {instruction taskId : String} {l : List StepLog} {e : StepLog} {c c' : Config}
    {frames frames' : List Frame} (h : Streaming js dumps p instruction l c frames)
    (hstep : StreamStep (p.compiled tools approval) b taskId (c, frames) e (c', frames')) :
    Streaming js dumps p instruction (l ++ [e]) c' frames' := by
  cases hstep with
  | mk hstep hcalls =>
      have hadvances := Preset.superstep_advances hstep
      refine ⟨h.rounds.advance hadvances, ?_, ?_, ?_⟩
      · have hlast : (∀ e' ∈ l ++ [e], e'.run.update.review = none) ↔
            (∀ e' ∈ l, e'.run.update.review = none) ∧ e.run.update.review = none := by
          simp [or_imp, forall_and]
        rw [hlast, h.review, hadvances.review_eq_none_iff]
      · intro hnone
        obtain ⟨hbefore, hupdate⟩ := hadvances.review_eq_none_iff.mp hnone
        rw [hadvances.revisionRound, hadvances.contributes.round_of_review_none hupdate]
        exact h.unreviewed hbefore
      · intro hread
        rw [runEvents_append, applyEvents_append]
        exact (h.live fun f hf => hread f (List.mem_append_left _ hf)).nodeFrames hadvances hcalls
          fun f hf => hread f (List.mem_append_right _ hf)

/-- **Whole streams.** -/
theorem streaming_of_run {p : Preset} {tools : List Tool} {approval : Bool} {b : Bindings}
    {taskId : String} {req : TaskRequest} {l : List StepLog} {c : Config} {frames : List Frame}
    (hrun : Run (StreamStep (p.compiled tools approval) b taskId)
      ((p.compiled tools approval).start taskId req, [startedFrame taskId]) l (c, frames))
    (js : Js) (dumps : Value → Text) (instruction : String) :
    Streaming js dumps p instruction l c frames := by
  have hentry : (p.compiled tools approval).entry ≠ .reviewer := by
    cases p <;> simp [Preset.compiled, Preset.delivers]
  refine hrun.log_invariant (P := fun l s => Streaming js dumps p instruction l s.1 s.2)
    (fun _ _ _ _ h hstep => h.step hstep)
    ⟨.start p _ taskId req hentry, ?_, fun _ => rfl, fun _ => ?_⟩
  · exact iff_of_true (by simp) rfl
  · rw [runEvents_startedFrame]
    exact .reset instruction

end Along

/-! ## The recovered view -/

namespace Web

def serverStatusOf : TaskStatus → ServerStatus
  | .completed => .completed
  | .failed => .failed
  | .awaitingUser => .awaitingUser
  | .running => .running

theorem resultStatus_modelDump (r : TaskResult) :
    resultStatus r.modelDump = some (serverStatusOf r.status) := by
  have hstatus : Record.get r.modelDump "status" = some (.str r.status.text) := rfl
  rw [resultStatus, hstatus]
  cases r.status <;> rfl

/-- The round of a snapshot is that of one of its artifacts. -/
theorem rebuiltRound_cases (r : TaskResult) :
    (rebuildFromSnapshot r.modelDump).round = 0 ∨
      ∃ a ∈ r.artifacts, (rebuildFromSnapshot r.modelDump).round = a.round := by
  have hfold : ∀ (artifacts : List Artifact) (rebuilt : Rebuilt),
      ((artifacts.map fun a => Value.dict a.modelDump).foldl Rebuilt.addArtifact rebuilt).round
          = rebuilt.round ∨
        ∃ a ∈ artifacts, ((artifacts.map fun a => Value.dict a.modelDump).foldl
          Rebuilt.addArtifact rebuilt).round = a.round := by
    intro artifacts
    induction artifacts with
    | nil => exact fun rebuilt => .inl rfl
    | cons a rest ih =>
        intro rebuilt
        have hone : (rebuilt.addArtifact (.dict a.modelDump)).round = max rebuilt.round a.round := by
          simp [Rebuilt.addArtifact, asRecord, Record.get, Artifact.modelDump, asNumber]
        rcases ih (rebuilt.addArtifact (.dict a.modelDump)) with hkept | ⟨a', ha', hround⟩
        · rcases max_choice rebuilt.round (a.round : ℚ) with hmax | hmax
          · exact .inl (hkept.trans (hone.trans hmax))
          · exact .inr ⟨a, List.mem_cons_self, hkept.trans (hone.trans hmax)⟩
        · exact .inr ⟨a', List.mem_cons_of_mem _ ha', hround⟩
  exact hfold r.artifacts {}

theorem rebuiltDecision (r : TaskResult) : (rebuildFromSnapshot r.modelDump).reviewDecision =
    r.review.map fun review => .str review.decision.text := by
  have hget : Record.get r.modelDump "review" = some (.ofDump ReviewerDecision.modelDump r.review) :=
    rfl
  show (asRecord (Record.get r.modelDump "review")).get "decision" = _
  rw [hget]
  cases r.review <;> rfl

namespace TaskStore

/-- Two stores show the same round, decision and status. -/
structure SameView (s t : TaskStore) : Prop where
  round : s.round = t.round
  reviewDecision : s.reviewDecision = t.reviewDecision
  serverStatus : s.serverStatus = t.serverStatus

/-- What a snapshot changes for a client that has followed the run. -/
theorem applySnapshot_sameView_iff {js : Js} {s : TaskStore} {r : TaskResult}
    (hstatus : s.serverStatus = some (serverStatusOf r.status)) :
    (s.applySnapshot js r.modelDump).SameView s ↔
      (rebuildFromSnapshot r.modelDump).round = s.round ∧
        ∀ review, r.review = some review →
          s.reviewDecision = some (.str review.decision.text) := by
  have hdecision : (s.applySnapshot js r.modelDump).reviewDecision =
      nullish (r.review.map fun review => .str review.decision.text) s.reviewDecision := by
    rw [← rebuiltDecision]
    rfl
  constructor
  · intro h
    refine ⟨h.round, fun review hreview => ?_⟩
    rw [← h.reviewDecision, hdecision, hreview]
    rfl
  · rintro ⟨hround, hreview⟩
    refine ⟨hround, ?_, ?_⟩
    · rw [hdecision]
      cases hr : r.review with
      | none => rfl
      | some review => exact (hreview review hr).symm
    · show (resultStatus r.modelDump).or s.serverStatus = s.serverStatus
      rw [resultStatus_modelDump, hstatus, Option.some_or]

end TaskStore

end Web

/-! ## Whole streams, followed to the end -/

section Followed

variable {p : Preset} {tools : List Tool} {approval : Bool} {b : Bindings} {taskId : String}
  {req : TaskRequest} {l : List StepLog} {c : Config} {frames : List Frame} {js : Js}
  {dumps : Value → Text}

/-- A finished run leaves a review exactly if one of its nodes wrote one. -/
theorem Produces.review_eq_none_iff
    (hrun : Produces (p.compiled tools approval) b taskId req l c frames) :
    (∀ e ∈ l, e.run.update.review = none) ↔ c.values.review = none := by
  obtain ⟨hrun, -, -⟩ := hrun
  exact (streaming_of_run hrun ⟨fun _ => none, fun _ => "", fun _ => "", fun _ => none,
    fun _ => none⟩ (fun _ => []) "").review

/-- The last frame leaves the round and the decision alone. -/
theorem Produces.liveView (hrun : Produces (p.compiled tools approval) b taskId req l c frames)
    (hread : ∀ f ∈ frames, f.isAside = false → Readable js dumps f) (instruction : String) :
    let live := (reset instruction).applyEvents js (runEvents js dumps frames)
    LiveView c.values.revisionRound live ∧
      live.serverStatus = some (serverStatusOf (materializeResult taskId c).status) := by
  obtain ⟨hrun, -, hflushed⟩ := hrun
  rename_i nodes flushed
  have hfinished : Readable js dumps (finishedFrame taskId c) := hread _ (by simp) rfl
  have hbefore : LiveView c.values.revisionRound
      ((reset instruction).applyEvents js (runEvents js dumps (nodes ++ flushed))) := by
    rw [runEvents_append, applyEvents_append]
    have hnodes := (streaming_of_run hrun js dumps instruction).live fun f hf =>
      hread f (by simp [hf])
    exact hnodes.aside fun event hevent =>
      isAside_of_mem_runEvents (fun f hf => Frame.mem_asideTypes (hflushed f hf)) hevent
  dsimp only
  rw [runEvents_append, runEvents_finishedFrame hfinished, applyEvents_append,
    applyEvents_singleton]
  refine ⟨⟨hbefore.round, hbefore.decision⟩, ?_⟩
  show some (finalStatus _) = _
  rw [finalStatus, resultStatus_modelDump, Option.getD_some]

/-- The views agree if the run has left no review. -/
theorem Produces.sameView_iff
    (hrun : Produces (p.compiled tools approval) b taskId req l c frames)
    (hread : ∀ f ∈ frames, f.isAside = false → Readable js dumps f) (instruction : String) :
    let live := (reset instruction).applyEvents js (runEvents js dumps frames)
    (live.applySnapshot js (materializeResult taskId c).modelDump).SameView live ↔
      c.values.review = none := by
  obtain ⟨hlive, hstatus⟩ := hrun.liveView hread instruction
  obtain ⟨hrun, hstopped, -⟩ := hrun
  have hs := streaming_of_run hrun js dumps instruction
  have hrebuilt := rebuiltRound_cases (materializeResult taskId c)
  dsimp only
  rw [applySnapshot_sameView_iff hstatus, hlive.round]
  constructor
  · rintro ⟨hround, hdecision⟩
    by_contra hne
    obtain ⟨review, hreview⟩ := Option.ne_none_iff_exists'.mp hne
    rcases Nat.eq_zero_or_pos c.values.revisionRound with hzero | hpos
    · -- the gate or the supervisor wrote the review
      cases (hlive.decision hzero).symm.trans (hdecision review hreview)
    · -- the reviewer did, and counted its round after dating its artifact
      rw [hround] at hrebuilt
      rcases hrebuilt with hzero | ⟨a, ha, heq⟩
      · exact hpos.ne' (Nat.cast_eq_zero.mp hzero)
      · exact (hs.rounds.lt_of_stopped hstopped hpos a ha).ne' (Nat.cast_inj.mp heq)
  · intro hnone
    have hzero := hs.unreviewed hnone
    refine ⟨?_, fun review hreview => ?_⟩
    · rw [hzero]
      rcases hrebuilt with hround | ⟨a, ha, hround⟩
      · rw [hround, Nat.cast_zero]
      · have hle : a.round ≤ 0 := hzero ▸ hs.rounds.le a ha
        rw [hround, Nat.le_zero.mp hle]
    · cases hnone.symm.trans hreview

/-- **The views agree exactly if no node of the run wrote a review.** -/
theorem views_agree_iff (hrun : Produces (p.compiled tools approval) b taskId req l c frames)
    (hread : ∀ f ∈ frames, f.isAside = false → Readable js dumps f) (instruction : String) :
    let live := (reset instruction).applyEvents js (runEvents js dumps frames)
    let result := normalizeTaskResult (.dict (materializeResult taskId c).modelDump)
    (live.applySnapshot js result).SameView live ↔ ∀ e ∈ l, e.run.update.review = none := by
  dsimp only
  rw [normalizeTaskResult_modelDump, hrun.review_eq_none_iff]
  exact hrun.sameView_iff hread instruction

end Followed

/-! ## Two small runs -/

section Samples

mutual

/-- `json.dumps` of values whose texts need no escapes and whose only float is 0.8. -/
def sampleDumps : Value → Text
  | .none => "null".toList
  | .bool b => if b then "true".toList else "false".toList
  | .int n => if n < 0 then '-' :: decimal n.natAbs else decimal n.natAbs
  | .float _ => "0.8".toList
  | .str s => '"' :: s.toList ++ ['"']
  | .list xs => '[' :: List.intercalate ", ".toList (dumpsEach xs) ++ [']']
  | .dict fields => '\x7b' :: List.intercalate ", ".toList (dumpsFields fields) ++ ['\x7d']

def dumpsEach : List Value → List Text
  | [] => []
  | v :: rest => sampleDumps v :: dumpsEach rest

def dumpsFields : List (String × Value) → List Text
  | [] => []
  | (key, v) :: rest =>
      ('"' :: key.toList ++ "\": ".toList ++ sampleDumps v) :: dumpsFields rest

end

/-- The language on the texts of some frames, and on integers. -/
def sampleJs (frames : List Frame) : Js where
  parse t := (frames.map Frame.data).find? fun v => sampleDumps v == t
  stringify _ := ""
  string _ := ""
  number _ := none
  numeric v := match v with
    | .int n => some n
    | _ => none

/-- Frames with different texts are read back. -/
theorem readable_sampleJs {frames : List Frame}
    (htexts : (frames.map fun f => sampleDumps f.data).Nodup)
    (hints : frames.all (fun f => f.data.ints.all fun n => decide (n.natAbs < 2 ^ 53)) = true) :
    ∀ f ∈ frames, Readable (sampleJs frames) sampleDumps f := by
  intro f hf
  have hmem : f.data ∈ frames.map Frame.data := List.mem_map_of_mem hf
  have hinj : ∀ v ∈ frames.map Frame.data, sampleDumps v = sampleDumps f.data → v = f.data := by
    intro v hv
    refine List.inj_on_of_nodup_map ?_ hv hmem
    rw [List.map_map]
    exact htexts
  have hparse : (sampleJs frames).parse (sampleDumps f.data) = some f.data := by
    have hsome : ((frames.map Frame.data).find?
        fun v => sampleDumps v == sampleDumps f.data).isSome = true :=
      List.find?_isSome.mpr ⟨f.data, hmem, beq_self_eq_true _⟩
    obtain ⟨v, hv⟩ := Option.isSome_iff_exists.mp hsome
    have htext : sampleDumps v = sampleDumps f.data := by simpa using List.find?_some hv
    have hsame := hinj v (List.mem_of_find?_eq_some hv) htext
    exact hv.trans (congrArg some hsame)
  refine ⟨⟨fun _ => hparse, fun n _ => rfl⟩, fun n hn => ?_⟩
  exact of_decide_eq_true (List.all_eq_true.mp (List.all_eq_true.mp hints f hf) n hn)

def sampleRequest : TaskRequest := { title := "t", description := "d" }

/-- The developer's superstep in an agreeable world. -/
def sampleCode (keys : List ContextKey) : StepLog :=
  let s := initialState "t1" sampleRequest
  let run := developer developerSystem keys World.agreeable s
  ⟨.developer, run, s.apply run.update⟩

/-- The reviewer approves of it. -/
def sampleReview : StepLog :=
  let s := (sampleCode []).after
  let run := reviewer reviewerSystem [] World.agreeable s
  ⟨.reviewer, run, s.apply run.update⟩

/-- The frames of a finished run. -/
def sampleFrames (l : List StepLog) (c : Config) : List Frame :=
  [startedFrame "t1"] ++ l.flatMap (nodeFrames "t1" false []) ++ [finishedFrame "t1" c]

/-- The supersteps of a chain, streamed without any calls. -/
theorem streams_of_chain {g : Graph} {b : Bindings} {l : List StepLog} {c : Config}
    (hrun : Run (Superstep g b) (g.start "t1" sampleRequest) l c) :
    Run (StreamStep g b "t1") (g.start "t1" sampleRequest, [startedFrame "t1"]) l
      (c, [startedFrame "t1"] ++ l.flatMap (nodeFrames "t1" false [])) := by
  induction hrun with
  | refl => exact .refl _
  | snoc _ hstep ih =>
      rw [List.flatMap_append, ← List.append_assoc, List.flatMap_singleton]
      exact ih.snoc (.mk hstep (by simp))

theorem produces_sampleFrames {g : Graph} {b : Bindings} {l : List StepLog} {c : Config}
    (hrun : Run (Superstep g b) (g.start "t1" sampleRequest) l c) (hend : c.atEnd = true) :
    Produces g b "t1" sampleRequest l c (sampleFrames l c) := by
  have hproduced := Produces.mk (streams_of_chain hrun) (.inl hend)
    (List.forall_mem_nil fun f : Frame => f.isAside = true)
  rwa [List.append_nil] at hproduced

/-- The reviewer approves in its first round: a client that followed the run shows round 1, one
that opens the task round 0. -/
theorem reviewed_views_differ :
    let l := [sampleCode [], sampleReview]
    let c : Config := { values := sampleReview.after, next := none }
    let frames := sampleFrames l c
    let live := (reset "").applyEvents (sampleJs frames)
      (runEvents (sampleJs frames) sampleDumps frames)
    let recovered := live.applySnapshot (sampleJs frames)
      (normalizeTaskResult (.dict (materializeResult "t1" c).modelDump))
    Produces (Preset.devReview.compiled [] false) {} "t1" sampleRequest l c frames ∧
      (∀ f ∈ frames, f.isAside = false → Readable (sampleJs frames) sampleDumps f) ∧
      live.round = 1 ∧ recovered.round = 0 ∧ ¬ recovered.SameView live := by
  intro l c frames live recovered
  have hcode : Superstep (Preset.devReview.compiled [] false) {}
      ((Preset.devReview.compiled [] false).start "t1" sampleRequest) (sampleCode [])
      { values := (sampleCode []).after, next := some .reviewer } :=
    ⟨World.agreeable, Graph.superstep_eq rfl rfl rfl rfl rfl rfl rfl⟩
  have hreview : Superstep (Preset.devReview.compiled [] false) {}
      { values := (sampleCode []).after, next := some .reviewer } sampleReview c :=
    ⟨World.agreeable, Graph.superstep_eq rfl rfl rfl rfl rfl rfl rfl⟩
  have hrun : Produces (Preset.devReview.compiled [] false) {} "t1" sampleRequest l c frames :=
    produces_sampleFrames ((Run.single hcode).snoc hreview) rfl
  have hread : ∀ f ∈ frames, Readable (sampleJs frames) sampleDumps f :=
    readable_sampleJs (by decide +kernel) (by decide +kernel)
  have hlive : live.round = 1 :=
    (hrun.liveView (fun f hf _ => hread f hf) "").1.round.trans Nat.cast_one
  have hrecovered : recovered.round = 0 := by decide +kernel
  refine ⟨hrun, fun f hf _ => hread f hf, hlive, hrecovered, fun h => ?_⟩
  have hround := h.round
  rw [hlive, hrecovered] at hround
  exact zero_ne_one hround

/-- Without a reviewer they agree. -/
theorem views_agree_solo :
    let l := [sampleCode [.title, .description]]
    let c : Config := { values := (sampleCode [.title, .description]).after, next := none }
    let frames := sampleFrames l c
    let live := (reset "").applyEvents (sampleJs frames)
      (runEvents (sampleJs frames) sampleDumps frames)
    let result := normalizeTaskResult (.dict (materializeResult "t1" c).modelDump)
    (live.applySnapshot (sampleJs frames) result).SameView live := by
  intro l c frames live result
  have hcode : Superstep (Preset.solo.compiled [] false) {}
      ((Preset.solo.compiled [] false).start "t1" sampleRequest)
      (sampleCode [.title, .description]) c :=
    ⟨World.agreeable, Graph.superstep_eq rfl rfl rfl rfl rfl rfl rfl⟩
  have hread : ∀ f ∈ frames, Readable (sampleJs frames) sampleDumps f :=
    readable_sampleJs (by decide +kernel) (by decide +kernel)
  exact (views_agree_iff (produces_sampleFrames (.single hcode) rfl) (fun f hf _ => hread f hf)
    "").mpr (by simp [sampleCode, developer])

end Samples

end AgentRoom
