import AgentRoom.Web.StreamTask

set_option autoImplicit false

/-! # Reconnecting to a stream

Everything the client knows is a function of the number of frames it has received: its cursor,
the events it has passed on, whether the task is over. The generator behind a connection starts
at the cursor, so that the next frame it yields is the next one the client needs. What the
cursor does not provide is the task id: it comes with the first event that carries one, and a
connection lost before that cannot be resumed.
-/

namespace AgentRoom.Web

open Replay Transition

/-- What is relied on of the language: `JSON.parse` reads what `json.dumps` writes, and `Number`
reads the numbers of `count` frames. It reads every number up to `2 ^ 53`. -/
structure Js.Documented (js : Js) (dumps : Value → Text) (count : Nat) : Prop where
  parse_dumps : ∀ v, (js.parse (dumps v)).isSome = true
  number_decimal : ∀ n < count, js.number (decimal n) = some (n : Int)

/-- The decoded events of some numbered frames. -/
def decodedEvents (js : Js) (dumps : Value → Text) (frames : List BufferedFrame) :
    List AgentEvent :=
  frames.filterMap fun frame => normalizeAgentEvent js (wireFrame dumps frame)

/-- The frames of a run of a task: `task_started` first, one terminal frame at the end, no more
than the buffer holds, and no task id but the run's own. -/
structure StreamedRun (js : Js) (dumps : Value → Text) (maxBuffer : Nat) (runId : String)
    (frames : List Frame) : Prop where
  started : frames.head?.map Frame.event = some "task_started"
  terminal : OneTerminal frames
  small : frames.length ≤ maxBuffer
  ids : ∀ (frame : BufferedFrame) (event : AgentEvent), frame.1 ∈ frames →
    normalizeAgentEvent js (wireFrame dumps frame) = some event →
    ∀ id, event.taskId = some id → id = "" ∨ id = runId

/-- The schedule may lose the first connection only after the task id has come with an event,
and fail fewer than `maxReconnects` attempts in a row. -/
def StreamSystem.Allowed (s : StreamSystem) : StreamAction → Prop
  | .disconnect failed =>
      (∀ k read, s.client.phase = .reading true k read → s.client.taskId ≠ none) ∧
        (failed = true → s.failures + 1 < maxReconnects)
  | .refused => s.failures + 1 < maxReconnects
  | _ => True

/-- A connection is lost or not made. -/
def StreamAction.isLoss : StreamAction → Bool
  | .disconnect _ | .refused => true
  | _ => false

/-- A step of the client or of the generator behind its connection. -/
def StreamAction.isClient : StreamAction → Bool
  | .serve | .receive | .close | .loop | .connect | .gone => true
  | _ => false

section

variable (js : Js) (dumps : Value → Text) (maxBuffer : Nat) (runId : String) (frames : List Frame)

/-- The steps of an allowed schedule. -/
def AllowedStep (s : StreamSystem) (a : StreamAction) (t : StreamSystem) : Prop :=
  StreamStep js dumps maxBuffer runId frames s a t ∧ s.Allowed a

/-- The steps that lose nothing. -/
def CalmStep (s : StreamSystem) (a : StreamAction) (t : StreamSystem) : Prop :=
  StreamStep js dumps maxBuffer runId frames s a t ∧ a.isLoss = false

/-! ## What the client has heard -/

/-- The client after `n` frames. -/
structure Client.Heard (c : Client) (n : Nat) : Prop where
  lastId : c.lastId = n - 1
  events : c.events = decodedEvents js dumps (frames.zipIdx.take n)
  terminal : c.terminal = true ↔ n = frames.length
  taskId : ∀ id, c.taskId = some id → id = runId

variable {js dumps maxBuffer runId frames}

theorem frameNumber_wireFrame {count : Nat} (hjs : js.Documented dumps count)
    {frame : BufferedFrame} (hlt : frame.2 < count) :
    frameNumber js.number (wireFrame dumps frame) = some (frame.2 : Int) := by
  have hne : decimal frame.2 ≠ [] := Nat.toDigits_ne_nil
  rw [frameNumber, wireFrame]
  dsimp only
  rw [if_neg hne, hjs.number_decimal _ hlt]

/-- Only the last frame is terminal. -/
theorem isTerminal_iff (h : OneTerminal frames) {n : Nat} {frame : Frame}
    (hn : frames[n]? = some frame) : frame.isTerminal = true ↔ n + 1 = frames.length := by
  obtain ⟨before, last, rfl, hlast, hbefore⟩ := h
  rw [List.length_append, List.length_singleton]
  rcases Nat.lt_or_ge n before.length with hlt | hge
  · rw [List.getElem?_append_left hlt] at hn
    have hplain := hbefore frame (List.mem_of_getElem? hn)
    constructor
    · intro hterminal
      rw [hplain] at hterminal
      cases hterminal
    · intro heq
      omega
  · rw [List.getElem?_append_right hge] at hn
    obtain ⟨hlt, hget⟩ := List.getElem?_eq_some_iff.mp hn
    rw [List.length_singleton] at hlt
    have hsame : frame = last := by
      rw [← hget]
      simp
    rw [hsame]
    constructor
    · intro _
      omega
    · intro _
      exact hlast

theorem decoded_isTerminal {frame : BufferedFrame} {event : AgentEvent}
    (h : normalizeAgentEvent js (wireFrame dumps frame) = some event) :
    event.body.isTerminal = frame.1.isTerminal := by
  rw [normalizeAgentEvent_isTerminal h, String.ofList_toList, Frame.isTerminal]

theorem exists_decoded {count : Nat} (hjs : js.Documented dumps count) {frame : BufferedFrame}
    (h : frame.1.isTerminal = true) :
    ∃ event, normalizeAgentEvent js (wireFrame dumps frame) = some event := by
  refine normalizeAgentEvent_of_terminal (hjs.parse_dumps _) ?_
  rw [String.ofList_toList]
  simpa [Frame.isTerminal] using h

/-- A frame that is dropped is no terminal one. -/
theorem isTerminal_of_dropped {count : Nat} (hjs : js.Documented dumps count)
    {frame : BufferedFrame} (h : normalizeAgentEvent js (wireFrame dumps frame) = none) :
    frame.1.isTerminal ≠ true := by
  intro hterminal
  obtain ⟨event, hevent⟩ := exists_decoded hjs hterminal
  rw [h] at hevent
  cases hevent

/-- One more frame adds what it is decoded to. -/
theorem decodedEvents_take_succ {n : Nat} {frame : Frame} (hn : frames[n]? = some frame) :
    decodedEvents js dumps (frames.zipIdx.take (n + 1)) =
      decodedEvents js dumps (frames.zipIdx.take n) ++
        (normalizeAgentEvent js (wireFrame dumps (frame, n))).toList := by
  have htake : frames.zipIdx.take (n + 1) = frames.zipIdx.take n ++ [(frame, n)] := by
    rw [List.take_add_one, List.getElem?_zipIdx, hn]
    simp
  rw [htake, decodedEvents, List.filterMap_append, decodedEvents]
  cases hnext : normalizeAgentEvent js (wireFrame dumps (frame, n)) <;> simp [hnext]

/-- The task id of a client is its old one or the one that the event names. -/
theorem Client.taskId_of_handle {c : Client} {event : AgentEvent} {id : String}
    (h : (c.handle event).taskId = some id) :
    c.taskId = some id ∨ event.taskId = some id ∧ id ≠ "" := by
  cases htask : event.taskId with
  | none => exact Or.inl (by simpa [Client.handle, htask] using h)
  | some own =>
      have hnew : (if own = "" then c.taskId else some own) = some id := by
        simpa [Client.handle, htask] using h
      by_cases hempty : own = ""
      · rw [if_pos hempty] at hnew
        exact Or.inl hnew
      · rw [if_neg hempty] at hnew
        cases hnew
        exact Or.inr ⟨rfl, hempty⟩

/-- The next frame. -/
theorem Client.Heard.receive (hjs : js.Documented dumps frames.length)
    (hrun : StreamedRun js dumps maxBuffer runId frames) {c : Client} {n : Nat}
    (h : c.Heard js dumps runId frames n) {frame : Frame} (hn : frames[n]? = some frame) :
    (c.receive js (wireFrame dumps (frame, n))).Heard js dumps runId frames (n + 1) := by
  have hlt : n < frames.length := (List.getElem?_eq_some_iff.mp hn).1
  -- frames were missing, so none of the frames so far was the terminal one
  have hopen : c.terminal = false := by
    cases hc : c.terminal with
    | false => rfl
    | true =>
        have heq := h.terminal.mp hc
        omega
  have hlast := isTerminal_iff hrun.terminal hn
  have hevents : decodedEvents js dumps (frames.zipIdx.take (n + 1)) =
      c.events ++ (normalizeAgentEvent js (wireFrame dumps (frame, n))).toList := by
    rw [decodedEvents_take_succ hn, h.events]
  rw [Client.receive, frameNumber_wireFrame hjs hlt]
  cases hdecode : normalizeAgentEvent js (wireFrame dumps (frame, n)) with
  | none =>
      have hplain := isTerminal_of_dropped hjs hdecode
      rw [hdecode] at hevents
      refine ⟨?_, ?_, ?_, h.taskId⟩
      · show (n : Int) = ((n + 1 : Nat) : Int) - 1
        omega
      · show c.events = _
        rw [hevents]
        exact (List.append_nil _).symm
      · show c.terminal = true ↔ _
        rw [hopen, ← hlast]
        simpa using hplain
  | some event =>
      rw [hdecode] at hevents
      have hterminal := decoded_isTerminal hdecode
      refine ⟨?_, ?_, ?_, ?_⟩
      · show (n : Int) = ((n + 1 : Nat) : Int) - 1
        omega
      · exact hevents.symm
      · show (c.terminal || event.body.isTerminal) = true ↔ _
        rw [hopen, Bool.false_or, hterminal]
        exact hlast
      · intro id hid
        rcases Client.taskId_of_handle (c := { c with lastId := n }) hid with hold | ⟨htask, hne⟩
        · exact h.taskId id hold
        · exact (hrun.ids (frame, n) event (List.mem_of_getElem? hn) hdecode id htask).resolve_left
            hne

/-! ## The invariant -/

variable (runId)

/-- Where the client stands after `n` frames. A connection goes on with the next frame, an attempt
has been counted, and the loop is only entered when it can go on. -/
def PhaseOk (s : StreamSystem) (n : Nat) : Prop :=
  match s.client.phase with
  | .reading first k read =>
      (∃ sub, s.feed.subscribers[k]? = some sub ∧ -1 ≤ sub.lastEventId ∧ sub.first + read = n ∧
        read ≤ sub.yielded.length) ∧
      if first = true then s.client.attempt = 0 ∧ s.failures = 0
      else s.client.taskId = some runId ∧ s.client.attempt = s.failures + 1 ∧
        s.failures < maxReconnects
  | .looping =>
      (s.client.terminal = true ∨ s.client.taskId = some runId) ∧ s.client.attempt = s.failures ∧
        s.failures < maxReconnects
  | .connecting =>
      s.client.taskId = some runId ∧ s.client.attempt = s.failures + 1 ∧ s.failures < maxReconnects
  | .returned => s.client.terminal = true
  | .threw _ => False

variable (js dumps maxBuffer frames)

structure StreamSystem.Inv (s : StreamSystem) : Prop where
  sound : s.feed.Sound maxBuffer
  log : s.feed.appended <+: frames
  done : s.feed.run.done = true → s.feed.appended = frames
  client : ∃ n, n ≤ s.feed.appended.length ∧ s.client.Heard js dumps runId frames n ∧
    PhaseOk runId s n

variable {js dumps maxBuffer runId frames}

theorem inv_init (hrun : StreamedRun js dumps maxBuffer runId frames) :
    StreamSystem.init.Inv js dumps maxBuffer runId frames := by
  have hsound : StreamSystem.init.feed.Sound maxBuffer :=
    Feed.sound_step maxBuffer {} (.subscribe (-1)) _ (Feed.sound_init maxBuffer) (.subscribe (-1))
  refine ⟨hsound, List.nil_prefix, ?_, 0, Nat.le_refl _, ⟨rfl, rfl, ?_, ?_⟩,
    ⟨_, rfl, ?_, rfl, ?_⟩, rfl, rfl⟩
  · intro hdone
    cases hdone
  · obtain ⟨before, last, rfl, -, -⟩ := hrun.terminal
    simp [StreamSystem.init]
  · intro id hid
    cases hid
  · exact Int.le_refl _
  · exact Nat.zero_le _

/-- The server's side moves on, the client stays. -/
theorem PhaseOk.feed {s : StreamSystem} {n : Nat} (h : PhaseOk runId s n) {a : FeedAction}
    {feed : Feed} (hstep : Feed.Step maxBuffer s.feed a feed) :
    PhaseOk runId { s with feed := feed } n := by
  unfold PhaseOk at h ⊢
  dsimp only
  cases hphase : s.client.phase with
  | reading first k read =>
      rw [hphase] at h
      obtain ⟨⟨sub, hsub, hlast, hnext, hread⟩, hrest⟩ := h
      obtain ⟨sub', hsub', hsame, hyielded⟩ := Feed.step_keeps hstep hsub
      have hfirst : sub'.first = sub.first := by rw [Subscriber.first, Subscriber.first, hsame]
      have hlen := hyielded.length_le
      exact ⟨⟨sub', hsub', by omega, by omega, by omega⟩, hrest⟩
  | looping => rw [hphase] at h; exact h
  | connecting => rw [hphase] at h; exact h
  | returned => rw [hphase] at h; exact h
  | threw error => rw [hphase] at h; exact h

/-- What a step of the server leaves of the invariant. -/
theorem inv_feed {s : StreamSystem} (h : s.Inv js dumps maxBuffer runId frames) {a : FeedAction}
    {feed : Feed} (hstep : Feed.Step maxBuffer s.feed a feed) (hlog : feed.appended <+: frames)
    (hle : s.feed.appended.length ≤ feed.appended.length)
    (hdone : feed.run.done = true → feed.appended = frames) :
    ({ s with feed := feed } : StreamSystem).Inv js dumps maxBuffer runId frames := by
  obtain ⟨n, hn, hheard, hphase⟩ := h.client
  exact ⟨Feed.sound_step maxBuffer s.feed a feed h.sound hstep, hlog, hdone, n, le_trans hn hle,
    hheard, hphase.feed hstep⟩

theorem Client.receive_lastId {count : Nat} (hjs : js.Documented dumps count) (c : Client)
    {frame : BufferedFrame} (hlt : frame.2 < count) :
    (c.receive js (wireFrame dumps frame)).lastId = frame.2 := by
  rw [Client.receive, frameNumber_wireFrame hjs hlt]
  cases normalizeAgentEvent js (wireFrame dumps frame) <;> rfl

theorem Client.receive_attempt (c : Client) (frame : SseFrame) :
    (c.receive js frame).attempt = c.attempt := by
  rw [Client.receive]
  cases normalizeAgentEvent js frame <;> rfl

/-- A task id is never forgotten. -/
theorem Client.receive_taskId {c : Client} (h : c.taskId ≠ none) (frame : SseFrame) :
    (c.receive js frame).taskId ≠ none := by
  unfold Client.receive
  cases normalizeAgentEvent js frame with
  | none => exact h
  | some event =>
      dsimp only [Client.handle]
      split
      · split
        · exact h
        · simp
      · exact h

theorem Client.Heard.taskId_eq {c : Client} {n : Nat} (h : c.Heard js dumps runId frames n)
    (hne : c.taskId ≠ none) : c.taskId = some runId := by
  obtain ⟨id, hid⟩ := Option.ne_none_iff_exists'.mp hne
  rw [hid, h.taskId id hid]

/-- Nothing is trimmed in a run that fits the buffer. -/
theorem Inv.baseSeq (hrun : StreamedRun js dumps maxBuffer runId frames) {s : StreamSystem}
    (h : s.Inv js dumps maxBuffer runId frames) : s.feed.run.baseSeq = 0 := by
  have hbase := h.sound.windowed.baseSeq
  have hlen := h.log.length_le
  have hsmall := hrun.small
  omega

/-- The subscriber behind the connection stands where the client does. -/
theorem PhaseOk.reading {s : StreamSystem} {n : Nat} (hok : PhaseOk runId s n) {first : Bool}
    {k read : Nat} {sub : Subscriber} (hphase : s.client.phase = .reading first k read)
    (hsub : s.feed.subscribers[k]? = some sub) :
    (-1 ≤ sub.lastEventId ∧ sub.first + read = n ∧ read ≤ sub.yielded.length) ∧
      if first = true then s.client.attempt = 0 ∧ s.failures = 0
      else s.client.taskId = some runId ∧ s.client.attempt = s.failures + 1 ∧
        s.failures < maxReconnects := by
  unfold PhaseOk at hok
  rw [hphase] at hok
  obtain ⟨⟨sub', hsub', hplace⟩, hrest⟩ := hok
  rw [hsub] at hsub'
  cases hsub'
  exact ⟨hplace, hrest⟩

/-- What the client reads next is the next frame. -/
theorem next_frame (hrun : StreamedRun js dumps maxBuffer runId frames) {s : StreamSystem}
    (h : s.Inv js dumps maxBuffer runId frames) {first : Bool} {k read : Nat} {sub : Subscriber}
    {frame : BufferedFrame} (hphase : s.client.phase = .reading first k read)
    (hsub : s.feed.subscribers[k]? = some sub) (hframe : sub.yielded[read]? = some frame) :
    (frame.2 : Int) = s.client.lastId + 1 ∧ frame.2 < s.feed.appended.length ∧
      frames[frame.2]? = some frame.1 := by
  obtain ⟨n, -, hheard, hok⟩ := h.client
  obtain ⟨⟨hlast, hnext, -⟩, -⟩ := hok.reading hphase hsub
  have hsound := h.sound.subscribers sub (List.mem_of_getElem? hsub)
  obtain ⟨hnumber, hget⟩ := hsound.yielded_get (Inv.baseSeq hrun h) hlast hframe
  have hlt := (List.getElem?_eq_some_iff.mp hget).1
  have hlastId := hheard.lastId
  obtain ⟨rest, hrest⟩ := h.log
  rw [hnumber]
  refine ⟨by omega, hlt, ?_⟩
  rw [← hrest, List.getElem?_append_left hlt]
  exact hget

theorem inv_receive (hjs : js.Documented dumps frames.length)
    (hrun : StreamedRun js dumps maxBuffer runId frames) {s : StreamSystem}
    (h : s.Inv js dumps maxBuffer runId frames) {first : Bool} {k read : Nat} {sub : Subscriber}
    {frame : BufferedFrame} (hphase : s.client.phase = .reading first k read)
    (hsub : s.feed.subscribers[k]? = some sub) (hframe : sub.yielded[read]? = some frame) :
    ({ s with
        client := (s.client.receive js (wireFrame dumps frame)).enter
          (.reading first k (read + 1)) } : StreamSystem).Inv js dumps maxBuffer runId frames := by
  obtain ⟨n, hn, hheard, hok⟩ := h.client
  obtain ⟨⟨hlast, hnext, hread⟩, hrest⟩ := hok.reading hphase hsub
  obtain ⟨hnumber, hlt, hnth⟩ := next_frame hrun h hphase hsub hframe
  have hlastId := hheard.lastId
  -- The subscriber yields without a gap, so the frame is the next one of the run.
  have hn' : frame.2 = n := by omega
  rw [hn'] at hlt hnth
  have hpair : frame = (frame.1, n) := by rw [← hn']
  have hreceived := hheard.receive hjs hrun hnth
  rw [← hpair] at hreceived
  refine ⟨h.sound, h.log, h.done, n + 1, hlt,
    ⟨hreceived.lastId, hreceived.events, hreceived.terminal, hreceived.taskId⟩, ?_⟩
  refine ⟨⟨sub, hsub, hlast, by omega, (List.getElem?_eq_some_iff.mp hframe).1⟩, ?_⟩
  show if first = true then (s.client.receive js (wireFrame dumps frame)).attempt = 0 ∧ _ else
    (s.client.receive js (wireFrame dumps frame)).taskId = _ ∧
      (s.client.receive js (wireFrame dumps frame)).attempt = _ ∧ _
  rw [Client.receive_attempt]
  cases first with
  | true => exact hrest
  | false =>
      obtain ⟨htask, hattempt, hfailures⟩ : s.client.taskId = some runId ∧ _ ∧ _ := hrest
      have hne : s.client.taskId ≠ none := by simp [htask]
      exact ⟨hreceived.taskId_eq (Client.receive_taskId hne _), hattempt, hfailures⟩

theorem maxReconnects_pos : 0 < maxReconnects := by decide

/-- The generator has returned and all is read: the run has been heard to its end. -/
theorem terminal_of_close (hrun : StreamedRun js dumps maxBuffer runId frames) {s : StreamSystem}
    (h : s.Inv js dumps maxBuffer runId frames) {first : Bool} {k : Nat} {sub : Subscriber}
    (hphase : s.client.phase = .reading first k sub.yielded.length)
    (hsub : s.feed.subscribers[k]? = some sub) (hreturned : sub.phase = .returned) :
    s.client.terminal = true := by
  obtain ⟨n, hn, hheard, hok⟩ := h.client
  obtain ⟨⟨hlast, hnext, -⟩, -⟩ := hok.reading hphase hsub
  have hsound := h.sound.subscribers sub (List.mem_of_getElem? hsub)
  have hlen := hsound.length_of_returned (Inv.baseSeq hrun h) hlast hreturned
  have hdone := hsound.done_of_returned hreturned
  refine hheard.terminal.mpr ?_
  rw [← h.done hdone]
  omega

theorem inv_close (hrun : StreamedRun js dumps maxBuffer runId frames) {s : StreamSystem}
    (h : s.Inv js dumps maxBuffer runId frames) {first : Bool} {k : Nat} {sub : Subscriber}
    (hphase : s.client.phase = .reading first k sub.yielded.length)
    (hsub : s.feed.subscribers[k]? = some sub) (hreturned : sub.phase = .returned) :
    ({ s with client := s.client.readEnd first false, failures := 0 } : StreamSystem).Inv
      js dumps maxBuffer runId frames := by
  obtain ⟨n, hn, hheard, hok⟩ := h.client
  obtain ⟨-, hrest⟩ := hok.reading hphase hsub
  have hterminal := terminal_of_close hrun h hphase hsub hreturned
  refine ⟨h.sound, h.log, h.done, n, hn, ?_, ?_⟩
  · cases first with
    | true => exact ⟨hheard.lastId, hheard.events, hheard.terminal, hheard.taskId⟩
    | false => exact ⟨hheard.lastId, hheard.events, hheard.terminal, hheard.taskId⟩
  · cases first with
    | true => exact ⟨Or.inl hterminal, hrest.1, maxReconnects_pos⟩
    | false => exact ⟨Or.inl hterminal, rfl, maxReconnects_pos⟩

/-- The connection is lost. -/
theorem inv_disconnect {s : StreamSystem} (h : s.Inv js dumps maxBuffer runId frames)
    {first : Bool} {k read : Nat} (failed : Bool) (hallowed : s.Allowed (.disconnect failed))
    (hphase : s.client.phase = .reading first k read) :
    ({ s with
        client := s.client.readEnd first failed
        failures := if first = false ∧ failed = true then s.failures + 1 else 0 } :
      StreamSystem).Inv js dumps maxBuffer runId frames := by
  obtain ⟨hknown, hfew⟩ := hallowed
  obtain ⟨n, hn, hheard, hok⟩ := h.client
  unfold PhaseOk at hok
  rw [hphase] at hok
  obtain ⟨-, hrest⟩ := hok
  cases first with
  -- The first connection: by the condition the client knows the task when it is lost.
  | true =>
      have hne : s.client.taskId ≠ none := hknown k read hphase
      have hend : s.client.readEnd true failed = s.client.enter .looping := by
        rw [Client.readEnd, if_pos rfl, if_neg fun hc => hne hc.2]
      rw [hend]
      exact ⟨h.sound, h.log, h.done, n, hn,
        ⟨hheard.lastId, hheard.events, hheard.terminal, hheard.taskId⟩,
        Or.inr (hheard.taskId_eq hne), hrest.1, maxReconnects_pos⟩
  | false =>
      obtain ⟨htask, hattempt, -⟩ : s.client.taskId = some runId ∧ _ ∧ _ := hrest
      cases failed with
      | true =>
          exact ⟨h.sound, h.log, h.done, n, hn,
            ⟨hheard.lastId, hheard.events, hheard.terminal, hheard.taskId⟩,
            Or.inr htask, hattempt, hfew rfl⟩
      | false =>
          exact ⟨h.sound, h.log, h.done, n, hn,
            ⟨hheard.lastId, hheard.events, hheard.terminal, hheard.taskId⟩,
            Or.inr htask, rfl, maxReconnects_pos⟩

/-- The head of the loop. -/
theorem inv_loop {s : StreamSystem} (h : s.Inv js dumps maxBuffer runId frames)
    (hphase : s.client.phase = .looping) :
    ({ s with client := s.client.loop } : StreamSystem).Inv js dumps maxBuffer runId frames := by
  obtain ⟨n, hn, hheard, hok⟩ := h.client
  unfold PhaseOk at hok
  rw [hphase] at hok
  obtain ⟨hgo, hattempt, hfew⟩ := hok
  cases hterminal : s.client.terminal with
  -- After the terminal event the loop is left, before it the client connects again.
  | true =>
      have hloop : s.client.loop = s.client.enter .returned := by
        rw [Client.loop, if_neg fun hc => by simp [hterminal] at hc]
      rw [hloop]
      exact ⟨h.sound, h.log, h.done, n, hn,
        ⟨hheard.lastId, hheard.events, hheard.terminal, hheard.taskId⟩, hterminal⟩
  | false =>
      have htask : s.client.taskId = some runId :=
        hgo.resolve_left fun htrue => by simp [hterminal] at htrue
      have hloop : s.client.loop =
          { s.client with attempt := s.client.attempt + 1, phase := .connecting } := by
        rw [Client.loop, if_pos ⟨hterminal, by simp [htask]⟩, if_neg (by omega)]
      rw [hloop]
      refine ⟨h.sound, h.log, h.done, n, hn,
        ⟨hheard.lastId, hheard.events, hheard.terminal, hheard.taskId⟩, htask, ?_, hfew⟩
      show s.client.attempt + 1 = s.failures + 1
      omega

/-- A new connection starts with the next frame. -/
theorem inv_connect {s : StreamSystem} (h : s.Inv js dumps maxBuffer runId frames)
    (hphase : s.client.phase = .connecting) :
    ({ s with
        feed := s.feed.subscribe s.client.lastId
        client := s.client.enter (.reading false s.feed.subscribers.length 0) } :
      StreamSystem).Inv js dumps maxBuffer runId frames := by
  obtain ⟨n, hn, hheard, hok⟩ := h.client
  unfold PhaseOk at hok
  rw [hphase] at hok
  have hstep : Feed.Step maxBuffer s.feed (.subscribe s.client.lastId)
      (s.feed.subscribe s.client.lastId) := .subscribe _
  have hlastId := hheard.lastId
  refine ⟨Feed.sound_step maxBuffer _ _ _ h.sound hstep, h.log, h.done, n, hn,
    ⟨hheard.lastId, hheard.events, hheard.terminal, hheard.taskId⟩,
    ⟨Subscriber.enter s.feed.run s.client.lastId, ?_, ?_, ?_, Nat.zero_le _⟩, hok⟩
  · show (s.feed.subscribers ++ [Subscriber.enter s.feed.run s.client.lastId])[
      s.feed.subscribers.length]? = _
    simp
  · show -1 ≤ s.client.lastId
    omega
  · show (s.client.lastId + 1).toNat + 0 = n
    omega

/-- The run buffers its next frame. -/
theorem inv_produce {s : StreamSystem} (h : s.Inv js dumps maxBuffer runId frames) {frame : Frame}
    (hopen : s.feed.run.done = false) (hframe : frames[s.feed.appended.length]? = some frame) :
    ({ s with feed := s.feed.append maxBuffer frame } : StreamSystem).Inv js dumps maxBuffer
      runId frames := by
  refine inv_feed h (.append frame hopen) ?_ ?_ ?_
  · obtain ⟨rest, hrest⟩ := h.log
    rw [← hrest, List.getElem?_append_right (Nat.le_refl _), Nat.sub_self] at hframe
    cases rest with
    | nil => cases hframe
    | cons next rest =>
        cases hframe
        refine ⟨rest, ?_⟩
        show (s.feed.appended ++ [frame]) ++ rest = frames
        rw [← hrest, List.append_assoc]
        rfl
  · show s.feed.appended.length ≤ (s.feed.appended ++ [frame]).length
    simp
  -- Appending a frame never marks the run as done.
  · intro hdone
    have hsame : (s.feed.append maxBuffer frame).run.done = s.feed.run.done := by
      show (s.feed.run.append maxBuffer frame).done = _
      rw [RunBuffer.append]
      dsimp only
      split <;> rfl
    rw [hsame, hopen] at hdone
    cases hdone

/-- A connection that is refused is tried again. -/
theorem inv_refused {s : StreamSystem} (h : s.Inv js dumps maxBuffer runId frames)
    (hallowed : s.Allowed .refused) (hphase : s.client.phase = .connecting) :
    ({ s with client := s.client.enter .looping, failures := s.failures + 1 } :
      StreamSystem).Inv js dumps maxBuffer runId frames := by
  obtain ⟨n, hn, hheard, hok⟩ := h.client
  unfold PhaseOk at hok
  rw [hphase] at hok
  obtain ⟨htask, hattempt, -⟩ := hok
  exact ⟨h.sound, h.log, h.done, n, hn,
    ⟨hheard.lastId, hheard.events, hheard.terminal, hheard.taskId⟩,
    Or.inr htask, hattempt, hallowed⟩

/-- **Every step of an allowed schedule keeps the invariant.** -/
theorem inv_step (hjs : js.Documented dumps frames.length)
    (hrun : StreamedRun js dumps maxBuffer runId frames)
    (s : StreamSystem) (a : StreamAction) (t : StreamSystem)
    (h : s.Inv js dumps maxBuffer runId frames)
    (hstep : AllowedStep js dumps maxBuffer runId frames s a t) :
    t.Inv js dumps maxBuffer runId frames := by
  obtain ⟨hstep, hallowed⟩ := hstep
  cases hstep with
  | produce hopen hframe => exact inv_produce h hopen hframe
  | finish hopen hall => exact inv_feed h (.finish hopen) h.log (Nat.le_refl _) fun _ => hall
  | subscribe lastEventId =>
      exact inv_feed h (.subscribe lastEventId) h.log (Nat.le_refl _) h.done
  | resume hother hresume =>
      have hkeep := hresume
      cases hkeep
      exact inv_feed h hresume h.log (Nat.le_refl _) h.done
  | serve hmine hresume =>
      have hkeep := hresume
      cases hkeep
      exact inv_feed h hresume h.log (Nat.le_refl _) h.done
  | receive hphase hsub hframe => exact inv_receive hjs hrun h hphase hsub hframe
  | close hphase hsub hreturned => exact inv_close hrun h hphase hsub hreturned
  | disconnect failed hphase => exact inv_disconnect h failed hallowed hphase
  | loop hphase => exact inv_loop h hphase
  | connect hphase htask => exact inv_connect h hphase
  | refused hphase => exact inv_refused h hallowed hphase
  -- A client that reconnects has learnt the task's id.
  | gone hphase htask =>
      obtain ⟨n, -, -, hok⟩ := h.client
      unfold PhaseOk at hok
      rw [hphase] at hok
      exact absurd hok.1 htask

/-! ## The end of a run -/

/-- The client has returned with every event of the run. -/
def StreamSystem.Finished (js : Js) (dumps : Value → Text) (frames : List Frame)
    (s : StreamSystem) : Prop :=
  s.client.phase = .returned ∧ s.client.events = decodedEvents js dumps frames.zipIdx

theorem finished_of_returned {s : StreamSystem} (h : s.Inv js dumps maxBuffer runId frames)
    (hphase : s.client.phase = .returned) : s.Finished js dumps frames := by
  obtain ⟨n, -, hheard, hok⟩ := h.client
  unfold PhaseOk at hok
  rw [hphase] at hok
  have hn : n = frames.length := hheard.terminal.mp hok
  refine ⟨hphase, ?_⟩
  rw [hheard.events, hn, List.take_of_length_le (by simp)]

/-- What the connection has left. -/
def StreamSystem.serving (s : StreamSystem) (k : Nat) : Nat :=
  match s.feed.subscribers[k]? with
  | some sub => sub.rank s.feed.run
  | none => 0

/-- The steps the client has left once the run is done and nothing is lost any more. -/
def StreamSystem.rank (s : StreamSystem) : Nat :=
  let total := s.feed.run.events.length + s.feed.appended.length
  match s.client.phase with
  | .reading _ k _ =>
      s.serving k + (s.feed.appended.length - (s.client.lastId + 1).toNat) + 2
  | .looping => if s.client.terminal = true then 1 else total + 6
  | .connecting => total + 5
  | .returned | .threw _ => 0

theorem serving_eq {s : StreamSystem} {k : Nat} {sub : Subscriber}
    (h : s.feed.subscribers[k]? = some sub) : s.serving k = sub.rank s.feed.run := by
  rw [StreamSystem.serving, h]

theorem rank_enter (run : RunBuffer) (lastEventId : Int) :
    (Subscriber.enter run lastEventId).rank run ≤ run.events.length + 2 := by
  show (run.slice _).length + 2 ≤ _
  rw [RunBuffer.slice]
  split
  · rw [List.length_drop]
    omega
  · exact Nat.le_refl _

/-- Only the subscriber behind the connection counts. -/
theorem rank_congr {s : StreamSystem} {feed : Feed} (hrun : feed.run = s.feed.run)
    (happended : feed.appended = s.feed.appended)
    (hsub : ∀ k, s.client.subscriber = some k → feed.subscribers[k]? = s.feed.subscribers[k]?) :
    ({ s with feed := feed } : StreamSystem).rank = s.rank := by
  unfold StreamSystem.rank
  dsimp only
  rw [hrun, happended]
  cases hphase : s.client.phase with
  | reading first k read =>
      have hk := hsub k (by rw [Client.subscriber, hphase])
      have hserving : ({ s with feed := feed } : StreamSystem).serving k = s.serving k := by
        rw [StreamSystem.serving, StreamSystem.serving]
        dsimp only
        rw [hk, hrun]
      dsimp only
      rw [hserving]
  | looping => rfl
  | connecting => rfl
  | returned => rfl
  | threw error => rfl

theorem rank_reading {s : StreamSystem} {first : Bool} {k read : Nat}
    (h : s.client.phase = .reading first k read) :
    s.rank = s.serving k + (s.feed.appended.length - (s.client.lastId + 1).toNat) + 2 := by
  rw [StreamSystem.rank, h]

theorem phase_of_subscriber {c : Client} {k : Nat} (h : c.subscriber = some k) :
    ∃ first read, c.phase = .reading first k read := by
  rw [Client.subscriber] at h
  split at h
  · rename_i first j read hphase
    cases h
    exact ⟨first, read, hphase⟩
  · cases h

theorem rank_receive {count : Nat} (hjs : js.Documented dumps count) (s : StreamSystem)
    (first : Bool) (k read : Nat) {frame : BufferedFrame} (hlt : frame.2 < count) :
    ({ s with
        client := (s.client.receive js (wireFrame dumps frame)).enter
          (.reading first k (read + 1)) } : StreamSystem).rank =
      s.serving k + (s.feed.appended.length - (frame.2 + 1)) + 2 := by
  have hid : ((s.client.receive js (wireFrame dumps frame)).enter
      (.reading first k (read + 1))).lastId = frame.2 := Client.receive_lastId hjs s.client hlt
  have ht := rank_reading (s := { s with
    client := (s.client.receive js (wireFrame dumps frame)).enter (.reading first k (read + 1)) })
    rfl
  rw [hid] at ht
  exact ht

/-- After the terminal frame the end of a connection is the end of the loop. -/
theorem rank_close {s : StreamSystem} (hterminal : s.client.terminal = true) (first : Bool) :
    ({ s with client := s.client.readEnd first false, failures := 0 } : StreamSystem).rank = 1 := by
  unfold StreamSystem.rank Client.readEnd
  cases first <;> simp [hterminal, Client.enter]

theorem rank_loop {s : StreamSystem}
    (hgo : s.client.terminal = true ∨ s.client.taskId = some runId)
    (hattempt : s.client.attempt < maxReconnects) :
    ({ s with client := s.client.loop } : StreamSystem).rank =
      if s.client.terminal = true then 0
      else s.feed.run.events.length + s.feed.appended.length + 5 := by
  unfold StreamSystem.rank Client.loop
  cases hterminal : s.client.terminal with
  | true => simp [Client.enter]
  | false =>
      have htask : s.client.taskId = some runId :=
        hgo.resolve_left fun htrue => by simp [hterminal] at htrue
      have hlt : ¬ maxReconnects ≤ s.client.attempt := by omega
      simp [htask, hlt]

/-- A new connection has at most the whole buffer to serve. -/
theorem rank_connect (s : StreamSystem) :
    ({ s with
        feed := s.feed.subscribe s.client.lastId
        client := s.client.enter (.reading false s.feed.subscribers.length 0) } :
      StreamSystem).rank + 1 ≤ s.feed.run.events.length + s.feed.appended.length + 5 := by
  have hnew : (s.feed.subscribe s.client.lastId).subscribers[s.feed.subscribers.length]? =
      some (Subscriber.enter s.feed.run s.client.lastId) := by
    show (s.feed.subscribers ++ [_])[s.feed.subscribers.length]? = _
    simp
  have ht := rank_reading (s := { s with
    feed := s.feed.subscribe s.client.lastId
    client := s.client.enter (.reading false s.feed.subscribers.length 0) }) rfl
  rw [serving_eq hnew] at ht
  have hle := rank_enter s.feed.run s.client.lastId
  have happended : (s.feed.subscribe s.client.lastId).appended = s.feed.appended := rfl
  have hsame : (s.feed.subscribe s.client.lastId).run = s.feed.run := rfl
  dsimp only at ht
  rw [happended, hsame] at ht
  rw [ht]
  omega

theorem rank_subscribe {s : StreamSystem} (lastEventId : Int)
    (hmine : ∀ k, s.client.subscriber = some k → k < s.feed.subscribers.length) :
    ({ s with feed := s.feed.subscribe lastEventId } : StreamSystem).rank = s.rank := by
  refine rank_congr rfl rfl ?_
  intro k hk
  show (s.feed.subscribers ++ [_])[k]? = _
  rw [List.getElem?_append_left (hmine k hk)]

theorem rank_set_other {s : StreamSystem} {j : Nat} {new : Subscriber}
    (hother : s.client.subscriber ≠ some j) :
    ({ s with feed := { s.feed with subscribers := s.feed.subscribers.set j new } } :
      StreamSystem).rank = s.rank := by
  refine rank_congr rfl rfl ?_
  intro k hk
  have hjk : j ≠ k := fun heq => hother (heq ▸ hk)
  exact List.getElem?_set_ne hjk

theorem rank_set_own {s : StreamSystem} {first : Bool} {k read : Nat} {old new : Subscriber}
    (hphase : s.client.phase = .reading first k read)
    (hget : s.feed.subscribers[k]? = some old) :
    ({ s with feed := { s.feed with subscribers := s.feed.subscribers.set k new } } :
      StreamSystem).rank =
      new.rank s.feed.run + (s.feed.appended.length - (s.client.lastId + 1).toNat) + 2 := by
  have hset : (s.feed.subscribers.set k new)[k]? = some new :=
    List.getElem?_set_self (List.getElem?_eq_some_iff.mp hget).1
  have ht := rank_reading (s := { s with
    feed := { s.feed with subscribers := s.feed.subscribers.set k new } }) hphase
  rwa [serving_eq hset] at ht

/-- A step that loses nothing pays with the rank if it is the client's. -/
theorem rank_step (hjs : js.Documented dumps frames.length)
    (hrun : StreamedRun js dumps maxBuffer runId frames)
    (s : StreamSystem) (a : StreamAction) (t : StreamSystem)
    (h : s.Inv js dumps maxBuffer runId frames) (hdone : s.feed.run.done = true)
    (hstep : CalmStep js dumps maxBuffer runId frames s a t) :
    t.feed.run.done = true ∧ t.rank + (if a.isClient then 1 else 0) ≤ s.rank := by
  obtain ⟨hstep, hcalm⟩ := hstep
  obtain ⟨n, hn, hheard, hok⟩ := h.client
  have hlastId := hheard.lastId
  unfold PhaseOk at hok
  cases hstep with
  | produce hopen hframe =>
      rw [hdone] at hopen
      cases hopen
  | finish hopen hall =>
      rw [hdone] at hopen
      cases hopen
  | subscribe lastEventId =>
      refine ⟨hdone, ?_⟩
      rw [rank_subscribe lastEventId]
      · exact Nat.le_refl _
      · -- the connection's subscriber is one of those that are there
        intro k hk
        obtain ⟨first, read, hphase⟩ := phase_of_subscriber hk
        rw [hphase] at hok
        obtain ⟨⟨sub, hsub, -⟩, -⟩ := hok
        exact (List.getElem?_eq_some_iff.mp hsub).1
  | resume hother hresume =>
      cases hresume with
      | resume hget hnext =>
          refine ⟨hdone, ?_⟩
          rw [rank_set_other hother]
          exact Nat.le_refl _
  | serve hmine hresume =>
      obtain ⟨first, read, hphase⟩ := phase_of_subscriber hmine
      cases hresume with
      | resume hget hnext =>
          have hpaid := Subscriber.rank_resume hdone hnext
          refine ⟨hdone, ?_⟩
          rw [rank_set_own hphase hget, rank_reading hphase, serving_eq hget]
          simp only [StreamAction.isClient, if_true]
          omega
  | receive hphase hsub hframe =>
      rename_i first k read sub frame
      obtain ⟨hnumber, hlt, hnth⟩ := next_frame hrun h hphase hsub hframe
      have hcount : frame.2 < frames.length := (List.getElem?_eq_some_iff.mp hnth).1
      refine ⟨hdone, ?_⟩
      rw [rank_receive hjs s first k read hcount, rank_reading hphase]
      simp only [StreamAction.isClient, if_true]
      omega
  | close hphase hsub hreturned =>
      rename_i first k sub
      have hterminal := terminal_of_close hrun h hphase hsub hreturned
      refine ⟨hdone, ?_⟩
      rw [rank_close hterminal first, rank_reading hphase]
      simp only [StreamAction.isClient, if_true]
      omega
  | disconnect failed hphase => cases hcalm
  | loop hphase =>
      refine ⟨hdone, ?_⟩
      rw [hphase] at hok
      obtain ⟨hgo, hattempt, hfew⟩ := hok
      have hs : s.rank = if s.client.terminal = true then 1
          else s.feed.run.events.length + s.feed.appended.length + 6 := by
        rw [StreamSystem.rank, hphase]
      rw [rank_loop hgo (by omega), hs]
      simp only [StreamAction.isClient, if_true]
      split <;> omega
  | connect hphase htask =>
      refine ⟨hdone, ?_⟩
      have hs : s.rank = s.feed.run.events.length + s.feed.appended.length + 5 := by
        rw [StreamSystem.rank, hphase]
      have hpaid := rank_connect s
      rw [hs]
      simp only [StreamAction.isClient, if_true]
      exact hpaid
  | refused hphase => cases hcalm
  | gone hphase htask =>
      rw [hphase] at hok
      exact absurd hok.1 htask

/-- Until it has returned the client has a step to take. -/
theorem exists_client_step {s : StreamSystem} (h : s.Inv js dumps maxBuffer runId frames)
    (hdone : s.feed.run.done = true) :
    s.client.phase = .returned ∨ ∃ a t, a.isClient = true ∧
      CalmStep js dumps maxBuffer runId frames s a t := by
  obtain ⟨n, -, hheard, hok⟩ := h.client
  unfold PhaseOk at hok
  cases hphase : s.client.phase with
  | reading first k read =>
      right
      rw [hphase] at hok
      obtain ⟨⟨sub, hsub, -, -, hread⟩, -⟩ := hok
      have hsound := h.sound.subscribers sub (List.mem_of_getElem? hsub)
      rcases Subscriber.exists_resume hdone hsound with hreturned | ⟨next, hnext⟩
      -- The server has nothing left to yield: what it yielded is received, then the end is.
      · rcases Nat.lt_or_ge read sub.yielded.length with hlt | hge
        · exact ⟨.receive, _, rfl,
            .receive hphase hsub (List.getElem?_eq_getElem hlt), rfl⟩
        · have hall : read = sub.yielded.length := by omega
          rw [hall] at hphase
          exact ⟨.close, _, rfl, .close hphase hsub hreturned, rfl⟩
      · have hmine : s.client.subscriber = some k := by rw [Client.subscriber, hphase]
        exact ⟨.serve, _, rfl, .serve hmine (.resume hsub hnext), rfl⟩
  | looping => exact Or.inr ⟨.loop, _, rfl, .loop hphase, rfl⟩
  | connecting =>
      rw [hphase] at hok
      exact Or.inr ⟨.connect, _, rfl, .connect hphase hok.1, rfl⟩
  | returned => exact Or.inl rfl
  | threw error =>
      rw [hphase] at hok
      exact hok.elim

/-- **Once the run is done and nothing is lost any more the client returns.** -/
theorem client_terminates (hjs : js.Documented dumps frames.length)
    (hrun : StreamedRun js dumps maxBuffer runId frames) {s : StreamSystem}
    (h : s.Inv js dumps maxBuffer runId frames) (hdone : s.feed.run.done = true) :
    Terminates (CalmStep js dumps maxBuffer runId frames) StreamAction.isClient
      (StreamSystem.Finished js dumps frames) s := by
  have hallowed : ∀ (s : StreamSystem) (a : StreamAction) (t : StreamSystem),
      CalmStep js dumps maxBuffer runId frames s a t →
        AllowedStep js dumps maxBuffer runId frames s a t := by
    intro s a t hstep
    refine ⟨hstep.1, ?_⟩
    have hcalm := hstep.2
    cases a with
    | disconnect failed => cases hcalm
    | refused => cases hcalm
    | _ => trivial
  -- The rank counts what the client has yet to do; the server's steps do not raise it.
  refine Terminates.of_rank StreamSystem.rank
    (P := fun s => s.Inv js dumps maxBuffer runId frames ∧ s.feed.run.done = true) ?_ ?_ ?_
    ⟨h, hdone⟩
  · intro s a t hs hstep
    obtain ⟨ht, hrank⟩ := rank_step hjs hrun s a t hs.1 hs.2 hstep
    exact ⟨⟨inv_step hjs hrun s a t hs.1 (hallowed s a t hstep), ht⟩, hrank⟩
  · intro s hs hzero
    refine finished_of_returned hs.1 ?_
    rcases exists_client_step hs.1 hs.2 with hreturned | ⟨a, t, hmine, hstep⟩
    · exact hreturned
    · have hrank := (rank_step hjs hrun s a t hs.1 hs.2 hstep).2
      rw [hmine, if_pos rfl] at hrank
      omega
  · intro s hs
    rcases exists_client_step hs.1 hs.2 with hreturned | hstep
    · exact Or.inl (finished_of_returned hs.1 hreturned)
    · exact Or.inr hstep

end

/-- **Every event is delivered exactly once** in an allowed schedule: at any time the client has
passed on the events of a prefix of the frames, it throws nothing, it returns only with all
events, and it does return once the run is done and nothing is lost any more. -/
theorem stream_delivers_once {js : Js} {dumps : Value → Text} {maxBuffer : Nat} {runId : String}
    {frames : List Frame} (hjs : js.Documented dumps frames.length)
    (hrun : StreamedRun js dumps maxBuffer runId frames) {l : List StreamAction}
    {s : StreamSystem}
    (hsteps : Run (AllowedStep js dumps maxBuffer runId frames) .init l s) :
    (∃ n, s.client.events = decodedEvents js dumps (frames.zipIdx.take n)) ∧
    (∀ error, s.client.phase ≠ .threw error) ∧
    (s.client.phase = .returned → s.Finished js dumps frames) ∧
    (s.feed.run.done = true →
      Terminates (CalmStep js dumps maxBuffer runId frames) StreamAction.isClient
        (StreamSystem.Finished js dumps frames) s) := by
  have hinv := hsteps.invariant (inv_step hjs hrun) (inv_init hrun)
  refine ⟨?_, ?_, finished_of_returned hinv, client_terminates hjs hrun hinv⟩
  · obtain ⟨n, -, hheard, -⟩ := hinv.client
    exact ⟨n, hheard.events⟩
  · intro error hphase
    obtain ⟨n, -, -, hok⟩ := hinv.client
    rw [PhaseOk, hphase] at hok
    exact hok

/-! ## A short run -/

/-- `{"task_id": task_id}`. -/
def startData : Value := .dict [("task_id", .str "t")]

def nodeData : Value :=
  .dict [("type", .str "node_start"), ("role", .str "planner"), ("task_id", .str "t")]

def startText : Text := "\x7b\"task_id\": \"t\"\x7d".toList

def nodeText : Text :=
  "\x7b\"type\": \"node_start\", \"role\": \"planner\", \"task_id\": \"t\"\x7d".toList

def errorText : Text :=
  "\x7b\"type\": \"task_error\", \"task_id\": \"t\", \"error\": \"e\"\x7d".toList

/-- `json.dumps` on the three values below. -/
def shortDumps : Value → Text
  | .dict [_] => startText
  | .dict [_, ("role", _), _] => nodeText
  | _ => errorText

def shortJs : Js where
  parse t :=
    if t = startText then some startData
    else if t = nodeText then some nodeData
    else some (errorData "t" "e")
  stringify _ := ""
  string _ := ""
  number t := some (Nat.ofDigitChars 10 t 0)
  numeric _ := none

def startFrame : Frame := ⟨"task_started", startData⟩

def nodeFrame : Frame := ⟨"node_start", nodeData⟩

def errorFrame : Frame := ⟨"task_error", errorData "t" "e"⟩

/-- A run that fails in its first node. -/
def shortRun : List Frame := [startFrame, nodeFrame, errorFrame]

theorem shortJs_documented (count : Nat) : shortJs.Documented shortDumps count := by
  constructor
  · intro v
    show (if shortDumps v = startText then some startData
      else if shortDumps v = nodeText then some nodeData else some (errorData "t" "e")).isSome = true
    split
    · rfl
    · split <;> rfl
  · intro n _
    show some ((Nat.ofDigitChars 10 (Nat.toDigits 10 n) 0 : Nat) : Int) = some (n : Int)
    rw [Nat.ofDigitChars_toDigits (by decide) (by decide)]

def nodeEvent : AgentEvent := ⟨some .planner, some "t", nodeData, .nodeStart⟩

def errorEvent : AgentEvent := ⟨none, some "t", errorData "t" "e", .taskError "e"⟩

theorem start_decoded (n : Nat) :
    normalizeAgentEvent shortJs (wireFrame shortDumps (startFrame, n)) = none := by
  simp [normalizeAgentEvent, wireFrame, shortJs, shortDumps, startFrame, startData, eventBody]

theorem node_decoded (n : Nat) :
    normalizeAgentEvent shortJs (wireFrame shortDumps (nodeFrame, n)) = some nodeEvent := by
  have hne : nodeText ≠ startText := by decide +kernel
  simp [normalizeAgentEvent, wireFrame, shortJs, shortDumps, nodeFrame, nodeData, hne, eventBody,
    asRecord, Record.get, nullish, asString, asRole, nodeEvent]

theorem error_decoded (n : Nat) :
    normalizeAgentEvent shortJs (wireFrame shortDumps (errorFrame, n)) = some errorEvent := by
  have hstart : errorText ≠ startText := by decide +kernel
  have hnode : errorText ≠ nodeText := by decide +kernel
  simp [normalizeAgentEvent, wireFrame, shortJs, shortDumps, errorFrame, errorData, hstart, hnode,
    eventBody, asRecord, Record.get, nullish, asString, asRole, errorEvent, Js.textOr]

theorem shortRun_streamed : StreamedRun shortJs shortDumps 5000 "t" shortRun := by
  refine ⟨rfl, ⟨[startFrame, nodeFrame], errorFrame, rfl, rfl, ?_⟩, by decide, ?_⟩
  · intro frame hframe
    rcases List.mem_pair.mp hframe with rfl | rfl <;> rfl
  · rintro ⟨frame, n⟩ event hmem hdecode id hid
    right
    simp only [shortRun, List.mem_cons, List.not_mem_nil, or_false] at hmem
    rcases hmem with rfl | rfl | rfl
    · rw [start_decoded n] at hdecode
      cases hdecode
    · rw [node_decoded n] at hdecode
      cases hdecode
      exact (Option.some.inj hid).symm
    · rw [error_decoded n] at hdecode
      cases hdecode
      exact (Option.some.inj hid).symm

section

variable (c : Client) (n : Nat)

theorem receive_start : c.receive shortJs (wireFrame shortDumps (startFrame, n)) =
    { c with lastId := n } := by
  rw [Client.receive, frameNumber_wireFrame (shortJs_documented (n + 1)) (Nat.lt_succ_self n),
    start_decoded]
  rfl

theorem receive_node : c.receive shortJs (wireFrame shortDumps (nodeFrame, n)) =
    { c with lastId := n, taskId := some "t", events := c.events ++ [nodeEvent] } := by
  rw [Client.receive, frameNumber_wireFrame (shortJs_documented (n + 1)) (Nat.lt_succ_self n),
    node_decoded]
  simp [Client.handle, nodeEvent, EventBody.isTerminal]

theorem receive_error : c.receive shortJs (wireFrame shortDumps (errorFrame, n)) =
    { c with lastId := n, taskId := some "t", terminal := true,
             events := c.events ++ [errorEvent] } := by
  rw [Client.receive, frameNumber_wireFrame (shortJs_documented (n + 1)) (Nat.lt_succ_self n),
    error_decoded]
  simp [Client.handle, errorEvent, EventBody.isTerminal]

end

/-- The frame with the task id has been received. -/
def heardSystem : StreamSystem where
  feed :=
    { run := { events := [(startFrame, 0), (nodeFrame, 1)] }
      subscribers :=
        [{ lastEventId := -1, phase := .yielding [] 2 false,
           yielded := [(startFrame, 0), (nodeFrame, 1)] }]
      appended := [startFrame, nodeFrame] }
  client :=
    { lastId := 1, taskId := some "t", events := [nodeEvent], phase := .reading true 0 2 }

theorem run_heardSystem : Run (AllowedStep shortJs shortDumps 5000 "t" shortRun) .init
    [.produce, .produce, .serve, .serve, .receive, .serve, .receive] heardSystem := by
  have h₀ := @Run.refl _ _ (AllowedStep shortJs shortDumps 5000 "t" shortRun) .init
  have h₁ := (h₀.snoc ⟨.produce rfl rfl, trivial⟩).snoc ⟨.produce rfl rfl, trivial⟩
  have h₂ := (h₁.snoc ⟨.serve (k := 0) rfl (.resume rfl rfl), trivial⟩).snoc
    ⟨.serve (k := 0) rfl (.resume rfl rfl), trivial⟩
  have h₃ := h₂.snoc
    ⟨.receive (k := 0) rfl rfl (show _ = some (startFrame, 0) from rfl), trivial⟩
  have h₄ := h₃.snoc ⟨.serve (k := 0) rfl (.resume rfl rfl), trivial⟩
  have h₅ := h₄.snoc ⟨.receive (k := 0) rfl rfl (show _ = some (nodeFrame, 1) from rfl), trivial⟩
  rw [receive_start, receive_node] at h₅
  exact h₅

/-- The connection was lost, the first attempt refused and the second one made; the run has
ended. -/
def resumedSystem : StreamSystem where
  feed :=
    { run := { events := [(startFrame, 0), (nodeFrame, 1), (errorFrame, 2)], done := true }
      subscribers := heardSystem.feed.subscribers ++
        [{ lastEventId := 1, phase := .yielding [] 3 true, yielded := [(errorFrame, 2)] }]
      appended := shortRun }
  client :=
    { lastId := 1, taskId := some "t", attempt := 2, events := [nodeEvent],
      phase := .reading false 1 0 }
  failures := 1

theorem run_resumedSystem : Run (AllowedStep shortJs shortDumps 5000 "t" shortRun) heardSystem
    [.disconnect true, .loop, .refused, .loop, .connect, .produce, .finish, .serve, .serve]
    resumedSystem := by
  have hfew : 0 + 1 < maxReconnects := by decide
  have hknown : heardSystem.Allowed (.disconnect true) :=
    ⟨fun _ _ _ => by simp [heardSystem], fun _ => hfew⟩
  have h₀ := @Run.single _ _ (AllowedStep shortJs shortDumps 5000 "t" shortRun) heardSystem _ _
    ⟨.disconnect true rfl, hknown⟩
  have h₁ := (h₀.snoc ⟨.loop rfl, trivial⟩).snoc ⟨.refused rfl, hfew⟩
  have h₂ := (h₁.snoc ⟨.loop rfl, trivial⟩).snoc ⟨.connect rfl rfl, trivial⟩
  have h₃ := (h₂.snoc ⟨.produce rfl rfl, trivial⟩).snoc ⟨.finish rfl rfl, trivial⟩
  exact (h₃.snoc ⟨.serve (k := 1) rfl (.resume rfl rfl), trivial⟩).snoc
    ⟨.serve (k := 1) rfl (.resume rfl rfl), trivial⟩

/-- A schedule with a loss and a refused attempt: the client returns with all events. -/
theorem stream_delivers_once_short :
    ∃ s, Run (AllowedStep shortJs shortDumps 5000 "t" shortRun) .init
        ([.produce, .produce, .serve, .serve, .receive, .serve, .receive] ++
          [.disconnect true, .loop, .refused, .loop, .connect, .produce, .finish, .serve, .serve] ++
          [.receive, .serve, .close, .loop]) s ∧
      s.Finished shortJs shortDumps shortRun := by
  have h₁ := (run_heardSystem.trans run_resumedSystem).snoc
    ⟨.receive (k := 1) rfl rfl (show _ = some (errorFrame, 2) from rfl), trivial⟩
  rw [receive_error] at h₁
  have h₂ := h₁.snoc ⟨.serve (k := 1) rfl (.resume rfl rfl), trivial⟩
  have h₃ := (h₂.snoc ⟨.close (k := 1) rfl rfl rfl, trivial⟩).snoc ⟨.loop rfl, trivial⟩
  exact ⟨_, h₃, (stream_delivers_once (shortJs_documented _) shortRun_streamed h₃).2.2.1 rfl⟩

/-- The connection is lost when `task_started`, which carries the task id, has been received:
`streamTask` throws and passes on nothing. -/
theorem lost_after_task_started :
    StreamedRun shortJs shortDumps 5000 "t" shortRun ∧
    ∃ s, Run (StreamStep shortJs shortDumps 5000 "t" shortRun) .init
        [.produce, .serve, .serve, .receive, .disconnect true] s ∧
      s.client.lastId = 0 ∧ s.client.events = [] ∧ s.client.phase = .threw .connection ∧
      s.failures = 0 := by
  have h₁ := (@Run.refl _ _ (StreamStep shortJs shortDumps 5000 "t" shortRun) .init).snoc
    (.produce rfl rfl)
  have h₂ := h₁.snoc (.serve (k := 0) rfl (.resume rfl rfl))
  have h₃ := h₂.snoc (.serve (k := 0) rfl (.resume rfl rfl))
  have h₄ := h₃.snoc (.receive (k := 0) rfl rfl rfl)
  have h₅ := h₄.snoc (.disconnect (k := 0) true rfl)
  have hend : (((({ phase := .reading true 0 0 } : Client).receive shortJs
      (wireFrame shortDumps (startFrame, 0))).enter
        (.reading true 0 1)).readEnd true true) =
          { lastId := 0, phase := .threw .connection } := by
    rw [receive_start]
    rfl
  exact ⟨shortRun_streamed, _, h₅, congrArg Client.lastId hend, congrArg Client.events hend,
    congrArg Client.phase hend, rfl⟩

end AgentRoom.Web
