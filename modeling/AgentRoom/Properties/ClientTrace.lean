import AgentRoom.Properties.Chunking
import AgentRoom.Properties.RecoveredView
import AgentRoom.Web.JsonText

set_option autoImplicit false

/-! # What a client sees of a run

A run is sent as frames: JSON texts in an event stream that is cut into chunks anywhere. The
client parses the chunks, reads the JSON and classifies the events. Beside the events of the
calls, what comes out is the history of the run: each role starts and ends in the order of the
supersteps, verifications and decisions come where they were made, and the result is last
(`client_trace`).
-/

namespace AgentRoom

open Transition (Run)
open Web Web.TaskStore

namespace Web

/-! ## The hypotheses of the decoding -/

/-- The client reads numbers and texts as JSON has them. -/
structure Js.Reads (js : Js) (fl : Floats) : Prop where
  parse_eq : js.parse = fl.parse
  numeric_int : ∀ n : Int, n.natAbs < 2 ^ 53 → js.numeric (.int n) = some (n : ℚ)

namespace Floats

variable {fl : Floats}

mutual

theorem ints_of_carries (v : Value) (h : fl.Carries v) : ∀ n ∈ v.ints, n.natAbs < 2 ^ 53 := by
  match v with
  | .int n =>
      rw [Carries] at h
      intro m hm
      rw [Value.ints] at hm
      rwa [List.mem_singleton.mp hm]
  | .none | .bool _ | .float _ | .str _ => simp [Value.ints]
  | .list xs =>
      rw [Carries] at h
      rw [Value.ints]
      exact intsList_of_carries xs h
  | .dict fields =>
      rw [Carries] at h
      rw [Value.ints]
      exact intsFields_of_carries fields h.2

theorem intsList_of_carries (xs : List Value) (h : fl.CarriesEach xs) :
    ∀ n ∈ Value.intsList xs, n.natAbs < 2 ^ 53 := by
  match xs with
  | [] => simp [Value.intsList]
  | v :: rest =>
      rw [CarriesEach] at h
      rw [Value.intsList]
      intro n hn
      rcases List.mem_append.mp hn with hn | hn
      · exact ints_of_carries v h.1 n hn
      · exact intsList_of_carries rest h.2 n hn

theorem intsFields_of_carries (fields : List (String × Value)) (h : fl.CarriesFields fields) :
    ∀ n ∈ Value.intsFields fields, n.natAbs < 2 ^ 53 := by
  match fields with
  | [] => simp [Value.intsFields]
  | (key, v) :: rest =>
      rw [CarriesFields] at h
      rw [Value.intsFields]
      intro n hn
      rcases List.mem_append.mp hn with hn | hn
      · exact ints_of_carries v h.1 n hn
      · exact intsFields_of_carries rest h.2 n hn

end

theorem readable {js : Js} (hjs : js.Reads fl) {frame : Frame} (h : fl.Carries frame.data) :
    Readable js fl.dumps frame where
  readsBack :=
    { parse_dumps := fun _ => by rw [hjs.parse_eq, fl.parse_dumps h]
      numeric_int := hjs.numeric_int }
  ints := ints_of_carries _ h

end Floats

/-! ## Landmarks -/

/-- The types of the events of a node's calls. -/
def callTypes : List String := ["token", "tool_call", "tool_result", "usage"]

/-- The events beside those of the calls. -/
def landmarks (events : List AgentEvent) : List AgentEvent :=
  events.filter fun event => event.body.type ∉ callTypes

@[simp] theorem landmarks_append (events later : List AgentEvent) :
    landmarks (events ++ later) = landmarks events ++ landmarks later := List.filter_append ..

theorem eventBody_type {js : Js} {type : String} {role : Option Role}
    {payload envelope : Record} {body : EventBody}
    (h : eventBody js type role payload envelope = some body) : body.type = type := by
  unfold eventBody at h
  dsimp only at h
  iterate 5
    obtain ⟨htype, rfl⟩ | h := ite_eq_some h
    · exact htype.1.symm
  iterate 5
    obtain ⟨htype, rfl⟩ | h := ite_eq_some h
    · exact htype.symm
  cases h

theorem normalizeAgentEvent_type {js : Js} {event data : Text} {id : Option Text} {e : AgentEvent}
    (h : normalizeAgentEvent js ⟨some event, data, id⟩ = some e) :
    e.body.type = String.ofList event := by
  unfold normalizeAgentEvent at h
  split at h
  · cases h
  · obtain ⟨body, hbody, rfl⟩ := Option.map_eq_some_iff.mp h
    exact eventBody_type hbody

variable {js : Js} {dumps : Value → Text}

/-- The frames of the calls leave no landmarks. -/
theorem landmarks_calls {calls : List Frame} (hcalls : ∀ f ∈ calls, f.isAside = true) :
    landmarks (runEvents js dumps calls) = [] := by
  rw [landmarks, List.filter_eq_nil_iff]
  intro event hevent
  rw [runEvents_eq] at hevent
  obtain ⟨frame, hframe, hshown⟩ := List.mem_filterMap.mp hevent
  have htype := normalizeAgentEvent_type hshown
  rw [String.ofList_toList] at htype
  have hmem : event.body.type ∈ callTypes := by
    rw [htype]
    exact of_decide_eq_true (hcalls frame hframe)
  simp [hmem]

end Web

/-! ## The messages about a superstep -/

/-- What the end of a node says: its role ends, a verification, a decision of the supervisor. -/
def NodeName.endMessages (u : Update) : NodeName → List UiBody
  | verify => u.verification.join.toList.map fun v =>
      .verificationCompleted v.passed v.exitCode v.round
  | supervisor => u.stuckDecision.toList.map fun d => .supervisorDecided d.action d.reasoning
  | n => n.uiRole.toList.map fun r => .nodeEnd r (summarizeNodeOutput r.text u false)

/-- What is said of a superstep. An interrupted node does not end. -/
def StepLog.messages (e : StepLog) : List UiBody :=
  e.node.uiRole.toList.map .nodeStart ++
    if e.run.interrupt.isSome then [] else e.node.endMessages e.run.update

/-- The frame of a message. -/
def UiBody.toFrame (taskId : String) (m : UiBody) : Frame :=
  formattedFrame (UiEvent.dict ⟨some taskId, m⟩)

/-- A tool node is none of the nodes that are named in a message. -/
theorem NodeName.tools_text (n : NodeName) :
    (tools n).text ∉ roleNames ∧ (tools n).text ≠ "verify" ∧ (tools n).text ≠ "supervisor" := by
  have hlast : (tools n).text.toList.getLast? = some 's' := by
    rw [NodeName.text, String.toList_append, List.getLast?_append]
    rfl
  have hne : ∀ name : String, name.toList.getLast? ≠ some 's' → (tools n).text ≠ name := by
    rintro name hname rfl
    exact hname hlast
  refine ⟨?_, hne _ (by decide), hne _ (by decide)⟩
  simp only [roleNames, List.mem_cons, List.not_mem_nil, or_false, not_or]
  exact ⟨hne _ (by decide), hne _ (by decide), hne _ (by decide), hne _ (by decide)⟩

theorem eventFrames_start (taskId : String) (n : NodeName) :
    eventFrames { data := .chainStart, name := n.text, taskId := some taskId } =
      (n.uiRole.toList.map UiBody.nodeStart).map (UiBody.toFrame taskId) := by
  cases n with
  | tools n =>
      have hname := (NodeName.tools_text n).1
      simp [eventFrames, formatStreamEvent, hname, NodeName.uiRole]
  | planner | developer | verify | supervisor | reviewer | delivery => rfl

/-- A summary does not depend on how the models in an output are shown. -/
theorem summarizeNodeOutput_dumped (role : String) (u : Update) (dumped : Bool) :
    summarizeNodeOutput role u dumped = summarizeNodeOutput role u false := by
  unfold summarizeNodeOutput
  cases dumped with
  | false => rfl
  | true =>
      split_ifs
      · rfl
      · rfl
      · cases u.review.join with
        | none => rfl
        | some review =>
            obtain ⟨decision, _, _, _⟩ := review
            cases decision <;> rfl
      · rfl
      · rfl

theorem eventFrames_end (taskId : String) (n : NodeName) (u : Update) (dumped : Bool) :
    eventFrames { data := .chainEnd (some u) dumped, name := n.text, taskId := some taskId } =
      (n.endMessages u).map (UiBody.toFrame taskId) := by
  have hrole (r : UiRole) :
      eventFrames { data := .chainEnd (some u) dumped, name := r.text, taskId := some taskId } =
        [UiBody.toFrame taskId (.nodeEnd r (summarizeNodeOutput r.text u false))] := by
    rw [← summarizeNodeOutput_dumped r.text u dumped]
    cases r <;> rfl
  cases n with
  | planner => exact hrole .planner
  | developer => exact hrole .developer
  | reviewer => exact hrole .reviewer
  | delivery => exact hrole .delivery
  | verify =>
      have hname : "verify" ∉ roleNames := by decide
      rw [NodeName.text, NodeName.endMessages]
      cases hv : u.verification.join with
      | none => simp [eventFrames, formatStreamEvent, hname, hv]
      | some v =>
          have hround : ((Surfaced.of dumped v.modelDump).field "round").or (.int 0)
              = .int v.round := by
            rw [Surfaced.field_of]
            exact Value.int_or_zero v.round
          simp only [eventFrames, formatStreamEvent, hname, hv, hround, Option.getD_some, if_false,
            if_true, Option.map_some]
          cases dumped <;> rfl
  | supervisor =>
      have hname : "supervisor" ∉ roleNames := by decide
      have hverify : "supervisor" ≠ "verify" := by decide
      rw [NodeName.text, NodeName.endMessages]
      cases hd : u.stuckDecision with
      | none => simp [eventFrames, formatStreamEvent, hname, hd]
      | some d =>
          have hreasoning : ((Surfaced.of dumped d.modelDump).field "reasoning").or (.str "")
              = .str d.reasoning := by
            rw [Surfaced.field_of]
            exact Value.str_or_empty d.reasoning
          simp only [eventFrames, formatStreamEvent, hname, hverify, hd, hreasoning,
            Option.getD_some, if_false, if_true, Option.map_some]
          cases dumped <;> rfl
  | tools n =>
      obtain ⟨hrole, hverify, hsupervisor⟩ := NodeName.tools_text n
      simp [eventFrames, formatStreamEvent, hrole, hverify, hsupervisor, NodeName.endMessages,
        NodeName.uiRole]

/-- No message about a superstep has the type of a call's event. -/
theorem StepLog.type_of_mem_messages {e : StepLog} {m : UiBody} (h : m ∈ e.messages) :
    m.type ∉ callTypes := by
  have hroles : ∀ (n : NodeName) (message : UiRole → UiBody),
      (∀ r, (message r).type ∉ callTypes) → ∀ m ∈ n.uiRole.toList.map message,
        m.type ∉ callTypes := by
    intro n message hmessage m hm
    obtain ⟨r, -, rfl⟩ := List.mem_map.mp hm
    exact hmessage r
  rw [StepLog.messages] at h
  rcases List.mem_append.mp h with hstart | hend
  · exact hroles _ _ (fun _ => by simp [UiBody.type, callTypes]) m hstart
  · split_ifs at hend with hi
    · cases hend
    · unfold NodeName.endMessages at hend
      split at hend
      · obtain ⟨v, -, rfl⟩ := List.mem_map.mp hend
        simp [UiBody.type, callTypes]
      · obtain ⟨d, -, rfl⟩ := List.mem_map.mp hend
        simp [UiBody.type, callTypes]
      · exact hroles _ _ (fun _ => by simp [UiBody.type, callTypes]) m hend

/-! ## Along a run -/

namespace Web

variable {js : Js} {dumps : Value → Text} {taskId : String}

/-- What the client makes of some messages. -/
def seenMessages (taskId : String) (ms : List UiBody) : List AgentEvent :=
  ms.filterMap fun m => UiEvent.seen ⟨some taskId, m⟩

@[simp] theorem seenMessages_append (ms later : List UiBody) :
    seenMessages taskId (ms ++ later) = seenMessages taskId ms ++ seenMessages taskId later :=
  List.filterMap_append

theorem runEvents_messages {ms : List UiBody}
    (h : ∀ m ∈ ms, Readable js dumps (m.toFrame taskId)) :
    runEvents js dumps (ms.map (UiBody.toFrame taskId)) = seenMessages taskId ms := by
  induction ms with
  | nil => rfl
  | cons m ms ih =>
      have hm := h m List.mem_cons_self
      have hms := ih fun m' hm' => h m' (List.mem_cons_of_mem _ hm')
      rw [List.map_cons, ← List.singleton_append, runEvents_append, hms, UiBody.toFrame,
        runEvents_formattedFrame hm, ← List.singleton_append, seenMessages_append]
      simp only [seenMessages, List.filterMap_cons, List.filterMap_nil]
      cases UiEvent.seen ⟨some taskId, m⟩ <;> rfl

theorem seen_type {u : UiEvent} {event : AgentEvent} (h : u.seen = some event) :
    event.body.type = u.body.type := by
  have htype := (UiEvent.shows_of_seen h).type
  rw [UiEvent.get_type] at htype
  exact (Value.str.inj (Option.some.inj htype)).symm

/-- The messages about a superstep are landmarks. -/
theorem landmarks_seenMessages (e : StepLog) :
    landmarks (seenMessages taskId e.messages) = seenMessages taskId e.messages := by
  rw [landmarks, List.filter_eq_self]
  intro event hevent
  obtain ⟨m, hm, hseen⟩ := List.mem_filterMap.mp hevent
  rw [seen_type hseen]
  exact decide_eq_true (StepLog.type_of_mem_messages hm)

/-- **One superstep**: its frames show the client what is said of it. -/
theorem landmarks_nodeFrames {e : StepLog} {dumped : Bool} {calls : List Frame}
    (hcalls : ∀ f ∈ calls, f.isAside = true)
    (hread : ∀ f ∈ nodeFrames taskId dumped calls e, f.isAside = false → Readable js dumps f) :
    landmarks (runEvents js dumps (nodeFrames taskId dumped calls e)) =
      seenMessages taskId e.messages := by
  have hends : (if e.run.interrupt.isSome then []
      else eventFrames
        { data := .chainEnd (some e.run.update) dumped, name := e.node.text, taskId := some taskId }) =
      (if e.run.interrupt.isSome then [] else e.node.endMessages e.run.update).map
        (UiBody.toFrame taskId) := by
    split_ifs
    · rfl
    · exact eventFrames_end taskId e.node e.run.update dumped
  have hmessages : ∀ m ∈ e.messages, m.toFrame taskId ∈ nodeFrames taskId dumped calls e →
      Readable js dumps (m.toFrame taskId) := by
    intro m hm hmem
    exact hread _ hmem (decide_eq_false (StepLog.type_of_mem_messages hm))
  rw [nodeFrames, hends, eventFrames_start] at hread hmessages ⊢
  have hall := @landmarks_seenMessages taskId e
  rw [StepLog.messages] at hall hmessages ⊢
  rw [seenMessages_append, landmarks_append] at hall
  rw [runEvents_append, runEvents_append, landmarks_append, landmarks_append,
    landmarks_calls hcalls, List.append_nil, runEvents_messages, runEvents_messages,
    seenMessages_append, hall]
  · exact fun m hm => hmessages m (List.mem_append_right _ hm)
      (List.mem_append_right _ (List.mem_map_of_mem hm))
  · exact fun m hm => hmessages m (List.mem_append_left _ hm)
      (List.mem_append_left _ (List.mem_append_left _ (List.mem_map_of_mem hm)))

/-- **Whole streams.** -/
theorem landmarks_of_run {g : Graph} {b : Bindings} {s : Config} {l : List StepLog} {c : Config}
    {frames : List Frame}
    (hrun : Run (AgentRoom.StreamStep g b taskId) (s, [startedFrame taskId]) l (c, frames))
    (hread : ∀ f ∈ frames, f.isAside = false → Readable js dumps f) :
    landmarks (runEvents js dumps frames) = seenMessages taskId (l.flatMap StepLog.messages) := by
  refine hrun.log_invariant (P := fun l s =>
    (∀ f ∈ s.2, f.isAside = false → Readable js dumps f) →
      landmarks (runEvents js dumps s.2) = seenMessages taskId (l.flatMap StepLog.messages))
    ?_ ?_ hread
  · rintro l s e s' ih hstep hread
    cases hstep with
    | mk hstep hcalls =>
        rw [runEvents_append, landmarks_append, List.flatMap_append, seenMessages_append,
          List.flatMap_singleton, ih fun f hf => hread f (List.mem_append_left _ hf),
          landmarks_nodeFrames hcalls fun f hf => hread f (List.mem_append_right _ hf)]
  · intro _
    rw [runEvents_startedFrame]
    rfl

/-! ## Over the wire -/

/-- The blocks carry the frames of a run, numbered from 0 on, with any comments among them. -/
def Carry (fl : Floats) (frames : List Frame) (blocks : List WireBlock) : Prop :=
  framesIn blocks = frames.zipIdx.map (wireFrame fl.dumps)

variable {fl : Floats} {frames : List Frame} {eol : LineEnding} {blocks : List WireBlock}
  {chunks : List (List UInt8)}

/-- What is parsed and decoded are the frames that were sent. -/
theorem events_of_wire (hblocks : Carry fl frames blocks)
    (hchunks : chunks.flatten = encodeStream eol blocks)
    (hharmless : Harmless eol chunks 0 false blocks) :
    (parseSseStream chunks).filterMap (normalizeAgentEvent js) = runEvents js fl.dumps frames := by
  have hparse : framesAt eol chunks {} 0 blocks = framesIn blocks :=
    (framesAt_eq_iff eol chunks {} (fun _ => rfl) none rfl 0 blocks).mpr ⟨rfl, hharmless⟩
  rw [parseSseStream_encoded hchunks]
  show (framesAt eol chunks {} 0 blocks).filterMap _ = _
  rw [hparse, hblocks, List.filterMap_map]
  rfl

theorem linesWhole_of_uncut (h : ∀ off line, lineCut eol chunks off line = false) (off : Nat)
    (lines : List Text) : linesWhole eol chunks off lines := by
  induction lines generalizing off with
  | nil => trivial
  | cons line lines ih => exact ⟨h off line, ih _⟩

/-- Where no line ending is cut the chunks do no harm; a single line feed never is. -/
theorem harmless_of_uncut (h : ∀ off line, lineCut eol chunks off line = false) (off : Nat)
    (blocks : List WireBlock) : Harmless eol chunks off false blocks := by
  induction blocks generalizing off with
  | nil => trivial
  | cons block blocks ih =>
      cases block with
      | frame f =>
          refine ⟨rfl, linesWhole_of_uncut h off _, ?_⟩
          rw [h]
          exact ih _
      | comment c => exact ih _

theorem oneLine_decimal (n : Nat) : OneLine (decimal n) :=
  ⟨fun h => absurd (isDigit_of_mem_decimal h) (by decide),
    fun h => absurd (isDigit_of_mem_decimal h) (by decide)⟩

/-- Frames can be sent if their names and their texts are lines. -/
theorem exists_carry (hframes : ∀ f ∈ frames, OneLine f.event.toList ∧ fl.Carries f.data) :
    ∃ blocks, Carry fl frames blocks := by
  have hsend : ∀ numbered : List BufferedFrame,
      (∀ f ∈ numbered, OneLine f.1.event.toList ∧ fl.Carries f.1.data) →
        ∃ blocks, framesIn blocks = numbered.map (wireFrame fl.dumps) := by
    intro numbered
    induction numbered with
    | nil => exact fun _ => ⟨[], rfl⟩
    | cons f rest ih =>
        intro h
        obtain ⟨hname, hdata⟩ := h f List.mem_cons_self
        obtain ⟨blocks, hblocks⟩ := ih fun f' hf' => h f' (List.mem_cons_of_mem _ hf')
        let sent : WireFrame :=
          { event := some f.1.event.toList
            data := fl.dumps f.1.data
            id := some (decimal f.2)
            event_ok := fun e he => Option.some.inj he ▸ hname
            id_ok := fun i hi => Option.some.inj hi ▸ oneLine_decimal f.2
            data_ok := (Floats.oneLine_dumps hdata).2 }
        refine ⟨.frame sent :: blocks, ?_⟩
        rw [List.map_cons, ← hblocks]
        rfl
  exact hsend frames.zipIdx fun f hf => hframes f.1 (List.fst_mem_of_mem_zipIdx hf)

theorem EventBody.isTerminal_eq_type (body : EventBody) :
    body.isTerminal = (body.type == "task_finished" || body.type == "task_error") := by
  cases body <;> rfl

/-- Messages are not terminal. -/
theorem not_isTerminal_of_seen {u : UiEvent} {event : AgentEvent} (h : u.seen = some event) :
    event.body.isTerminal = false := by
  rw [EventBody.isTerminal_eq_type, seen_type h]
  cases u with
  | mk taskId body => cases body <;> rfl

end Web

/-- **What a client sees of a run** that finishes: however the stream is cut, beside the events of
the calls it sees the messages about the supersteps in their order, and at the end the result. -/
theorem client_trace {g : Graph} {b : Bindings} {taskId : String} {req : TaskRequest}
    {l : List StepLog} {c : Config} {frames : List Frame}
    (hrun : Produces g b taskId req l c frames) {js : Js} {fl : Floats} (hjs : js.Reads fl)
    (hdata : ∀ f ∈ frames, f.isAside = false → fl.Carries f.data) {eol : LineEnding}
    {blocks : List WireBlock} (hblocks : Carry fl frames blocks) {chunks : List (List UInt8)}
    (hchunks : chunks.flatten = encodeStream eol blocks)
    (hharmless : Harmless eol chunks 0 false blocks) :
    let result := (materializeResult taskId c).modelDump
    ∃ events,
      (parseSseStream chunks).filterMap (normalizeAgentEvent js) =
        events ++ [⟨none, some taskId, .dict result, .taskFinished result⟩] ∧
      landmarks events = seenMessages taskId (l.flatMap StepLog.messages) ∧
      ∀ event ∈ events, event.body.isTerminal = false := by
  have hread : ∀ f ∈ frames, f.isAside = false → Readable js fl.dumps f :=
    fun f hf haside => Floats.readable hjs (hdata f hf haside)
  rw [events_of_wire hblocks hchunks hharmless]
  cases hrun with
  | @mk frames flushed hsteps _ hflushed =>
      have hlast := hread _ (List.mem_append_right _ List.mem_cons_self) rfl
      have htrace := landmarks_of_run hsteps fun f hf =>
        hread f (List.mem_append_left _ (List.mem_append_left _ hf))
      have hlandmarks : landmarks (runEvents js fl.dumps (frames ++ flushed)) =
          seenMessages taskId (l.flatMap StepLog.messages) := by
        rw [runEvents_append, landmarks_append, htrace, landmarks_calls hflushed, List.append_nil]
      refine ⟨runEvents js fl.dumps (frames ++ flushed), ?_, hlandmarks, fun event hevent => ?_⟩
      · rw [runEvents_append, runEvents_finishedFrame hlast]
      · by_cases hcall : event.body.type ∈ callTypes
        · rw [EventBody.isTerminal_eq_type]
          simp only [callTypes, List.mem_cons, List.not_mem_nil, or_false] at hcall
          rcases hcall with h | h | h | h <;> rw [h] <;> rfl
        · have hmem : event ∈ landmarks (runEvents js fl.dumps (frames ++ flushed)) :=
            List.mem_filter.mpr ⟨hevent, decide_eq_true hcall⟩
          rw [hlandmarks] at hmem
          obtain ⟨m, -, hseen⟩ := List.mem_filterMap.mp hmem
          exact not_isTerminal_of_seen hseen

/-! ## A reviewed run -/

/-- Doubles, on the one float of the run. -/
def sampleFloats : Floats where
  repr _ := "0.8".toList
  read t := if t = "0.8".toList then some (4 / 5) else none

theorem exact_sampleFloats : sampleFloats.Exact (4 / 5) where
  ne_nil := by decide
  numeric := by
    have hall : "0.8".toList.all Json.isNumeric = true := by decide
    exact List.all_eq_true.mp hall
  readInt_repr := by decide
  read_repr := by simp [sampleFloats]

/-- The language on JSON texts and integers. -/
def sampleLanguage : Js where
  parse := sampleFloats.parse
  stringify _ := ""
  string _ := ""
  number _ := none
  numeric v := match v with
    | .int n => some n
    | _ => none

/-- What the last frame of the run holds. -/
def reviewedDump : List (String × Value) :=
  let review : List (String × Value) :=
    [("decision", .str "approved"), ("feedback", .str "fine"), ("issues", .list []),
      ("confidence", .float (4 / 5))]
  [("task_id", .str "t1"), ("status", .str "running"), ("plan", .none), ("code", .str "done"),
    ("review", .dict review), ("delivery", .none), ("rounds", .int 1), ("verification", .none),
    ("stuck_decision", .none),
    ("artifacts", .list
      [.dict [("kind", .str "code"), ("role", .str "developer"), ("content", .str "done"),
          ("round", .int 0), ("extra", .dict [])],
        .dict [("kind", .str "review"), ("role", .str "reviewer"), ("content", .str "fine"),
          ("round", .int 0), ("extra", .dict review)]]),
    ("events", .list
      [.dict [("type", .str "developer_completed"), ("role", .str "developer"),
          ("round", .int 0), ("payload", .dict [])],
        .dict [("type", .str "reviewer_completed"), ("role", .str "reviewer"),
          ("round", .int 0), ("payload", .dict [("decision", .str "approved")])]]),
    ("pending_tool_calls", .list [])]

theorem carries_reviewedDump : sampleFloats.Carries (.dict reviewedDump) := by
  simp [reviewedDump, Floats.Carries, Floats.CarriesFields, Floats.CarriesEach,
    exact_sampleFloats]

/-- The developer's superstep and the reviewer's, which approves. -/
theorem client_trace_reviewed :
    let l := [sampleCode [], sampleReview]
    let c : Config := { values := sampleReview.after, next := none }
    let result := (materializeResult "t1" c).modelDump
    ∃ blocks events,
      (parseSseStream [encodeStream .lf blocks]).filterMap (normalizeAgentEvent sampleLanguage) =
        events ++ [⟨none, some "t1", .dict result, .taskFinished result⟩] ∧
      landmarks events = seenMessages "t1" (l.flatMap StepLog.messages) ∧
      ∀ event ∈ events, event.body.isTerminal = false := by
  intro l c result
  have hcode : Superstep (Preset.devReview.compiled [] false) {}
      ((Preset.devReview.compiled [] false).start "t1" sampleRequest) (sampleCode [])
      { values := (sampleCode []).after, next := some .reviewer } :=
    ⟨World.agreeable, Graph.superstep_eq rfl rfl rfl rfl rfl rfl rfl⟩
  have hreview : Superstep (Preset.devReview.compiled [] false) {}
      { values := (sampleCode []).after, next := some .reviewer } sampleReview c :=
    ⟨World.agreeable, Graph.superstep_eq rfl rfl rfl rfl rfl rfl rfl⟩
  have hrun : Produces (Preset.devReview.compiled [] false) {} "t1" sampleRequest l c
      (sampleFrames l c) := produces_sampleFrames ((Run.single hcode).snoc hreview) rfl
  have hshown : sampleFrames l c =
      [startedFrame "t1", UiBody.toFrame "t1" (.nodeStart .developer),
        UiBody.toFrame "t1" (.nodeEnd .developer [("code_chars", .int 4)]),
        UiBody.toFrame "t1" (.nodeStart .reviewer),
        UiBody.toFrame "t1" (.nodeEnd .reviewer [("decision", .str "approved"), ("round", .int 1)]),
        ⟨"task_finished", .dict reviewedDump⟩] := rfl
  have hnames : ∀ f ∈ sampleFrames l c, OneLine f.event.toList := by
    rw [hshown]
    unfold OneLine
    decide
  have hcarries : ∀ f ∈ sampleFrames l c, sampleFloats.Carries f.data := by
    rw [hshown]
    intro f hf
    simp only [List.mem_cons, List.not_mem_nil, or_false] at hf
    rcases hf with rfl | rfl | rfl | rfl | rfl | rfl
    case inr.inr.inr.inr.inr => exact carries_reviewedDump
    all_goals
      simp [startedFrame, UiBody.toFrame, formattedFrame, UiEvent.dict, UiBody.payload,
        UiBody.role, Value.ofText, Floats.Carries, Floats.CarriesFields]
  obtain ⟨blocks, hblocks⟩ := exists_carry fun f hf => ⟨hnames f hf, hcarries f hf⟩
  exact ⟨blocks, client_trace hrun ⟨rfl, fun n _ => rfl⟩ (fun f hf _ => hcarries f hf) hblocks
    (List.flatten_singleton ..) (harmless_of_uncut (fun _ _ => rfl) 0 blocks)⟩

end AgentRoom
