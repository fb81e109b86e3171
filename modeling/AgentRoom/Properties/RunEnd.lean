import AgentRoom.Properties.Replay

set_option autoImplicit false

/-! # How a detached run ends

A run settles with one terminal frame when the background task gets to run its body, its
producer reports the end as the last thing it does, and no terminal frame comes from the
producer otherwise. A cancellation before the first step of the task leaves the run open for
ever: no frame is written and no subscriber is notified.
-/

namespace AgentRoom

open Transition

/-- `resume k`. -/
def ManagerAction.isResume (k : Nat) : ManagerAction → Bool
  | .resume j => j == k
  | _ => false

/-- The run is done, the buffer ends with the only terminal frame ever appended, and every
subscriber ends. -/
structure Manager.Settled (maxBuffer : Nat) (taskId : String) (s : Manager) : Prop where
  done : s.feed.run.done = true
  terminal : OneTerminal s.feed.appended
  buffered : s.feed.run.events.getLast?.map Prod.fst = s.feed.appended.getLast?
  subscribers : ∀ k sub, s.feed.subscribers[k]? = some sub →
    Terminates (Manager.Step maxBuffer taskId) (ManagerAction.isResume k)
      (fun t => ∃ sub', t.feed.subscribers[k]? = some sub' ∧ sub'.phase = .returned) s

/-! ## The condition -/

/-- What the producer may do before it suspends or ends: no terminal frame, except as the very
last thing. -/
def Segment.Orderly (seg : Segment) : Prop :=
  match seg.exit with
  | some .ended => ∃ before last, seg.frames = before ++ [last] ∧ last.isTerminal = true ∧
      ∀ frame ∈ before, frame.isTerminal = false
  | some .baseException => False
  | _ => ∀ frame ∈ seg.frames, frame.isTerminal = false

/-- The task has taken its first step. -/
def DriveTask.started : DriveTask → Bool
  | .created _ => false
  | _ => true

/-- No `cancel` before the first step of the task, and an orderly producer. -/
def ManagerAction.Orderly (s : Manager) : ManagerAction → Prop
  | .drive seg => seg.Orderly
  | .cancel => s.task.started = true
  | _ => True

/-! ## Every run of a manager is a run of its feed -/

namespace Feed

variable {maxBuffer : Nat}

theorem run_done_append (s : Feed) (frame : Frame) :
    (s.append maxBuffer frame).run.done = s.run.done := by
  show (s.run.append maxBuffer frame).done = s.run.done
  unfold RunBuffer.append
  dsimp only
  split <;> rfl

/-- The appends of one segment. -/
theorem appends_run (s : Feed) (hdone : s.run.done = false) (frames : List Frame) :
    Run (Step maxBuffer) s (frames.map .append) (frames.foldl (Feed.append maxBuffer) s) ∧
      (frames.foldl (Feed.append maxBuffer) s).run.done = false ∧
      (frames.foldl (Feed.append maxBuffer) s).appended = s.appended ++ frames := by
  induction frames generalizing s with
  | nil => exact ⟨.refl s, hdone, (List.append_nil _).symm⟩
  | cons frame frames ih =>
      have hopen : (s.append maxBuffer frame).run.done = false := by rwa [run_done_append]
      obtain ⟨hrun, hstill, happ⟩ := ih (s.append maxBuffer frame) hopen
      refine ⟨Run.cons (Step.append frame hdone) hrun, hstill, ?_⟩
      rw [List.foldl_cons, happ]
      show (s.appended ++ [frame]) ++ frames = _
      rw [List.append_assoc, List.singleton_append]

end Feed

namespace Manager

variable {maxBuffer : Nat} {taskId : String} {s t : Manager}

/-- The end of the body: at most one more frame, then done. -/
theorem close_run (exit : ProducerExit) (feed : Feed) (hdone : feed.run.done = false) :
    (∃ l, Run (Feed.Step maxBuffer) feed l (close maxBuffer taskId exit feed)) ∧
      (close maxBuffer taskId exit feed).run.done = true ∧
      (close maxBuffer taskId exit feed).appended =
        feed.appended ++ (exit.terminal taskId).toList := by
  rw [close]
  cases exit.terminal taskId with
  | none =>
      exact ⟨⟨_, Run.single (Feed.Step.finish hdone)⟩, rfl, (List.append_nil _).symm⟩
  | some frame =>
      have hopen : (feed.append maxBuffer frame).run.done = false := by
        rwa [Feed.run_done_append]
      exact ⟨⟨_, (Run.single (Feed.Step.append frame hdone)).snoc (Feed.Step.finish hopen)⟩, rfl,
        rfl⟩

/-- A segment that ends the producer, otherwise than by an exception `_drive` lets through. -/
theorem runSegment_exit (s : Manager) (frames : List Frame) {exit : ProducerExit}
    (h : exit ≠ .baseException) :
    s.runSegment maxBuffer taskId ⟨frames, some exit⟩ =
      { s with
        feed := close maxBuffer taskId exit (frames.foldl (Feed.append maxBuffer) s.feed)
        task := .finished } := by
  cases exit with
  | baseException => exact absurd rfl h
  | ended => rfl
  | cancelledError => rfl
  | budgetExceeded dimension limit actual text => rfl
  | guardrailTripwire finding => rfl
  | exception text => rfl

/-- The frames of `_drive` itself are terminal, and it adds one whenever the producer raises. -/
theorem terminal_of_raised {exit : ProducerExit} (hended : exit ≠ .ended)
    (hbase : exit ≠ .baseException) :
    ∃ frame, exit.terminal taskId = some frame ∧ frame.isTerminal = true := by
  cases exit with
  | ended => exact absurd rfl hended
  | baseException => exact absurd rfl hbase
  | cancelledError => exact ⟨_, rfl, rfl⟩
  | budgetExceeded dimension limit actual text => exact ⟨_, rfl, rfl⟩
  | guardrailTripwire finding => exact ⟨_, rfl, rfl⟩
  | exception text => exact ⟨_, rfl, rfl⟩

/-! ## The invariant -/

/-- While the task runs, the run is open and has no terminal frame; once it is over, the run is
done and has one. -/
structure Inv (maxBuffer : Nat) (s : Manager) : Prop where
  sound : s.feed.Sound maxBuffer
  fresh : s.task ≠ .created true
  running : s.task.done = false → s.feed.run.done = false ∧ true ∉ s.answers ∧
    ∀ frame ∈ s.feed.appended, frame.isTerminal = false
  ended : s.task.done = true → s.feed.run.done = true ∧ OneTerminal s.feed.appended

theorem Inv.of_running (hsound : s.feed.Sound maxBuffer) (hfresh : s.task ≠ .created true)
    (hrunning : s.task.done = false) (hopen : s.feed.run.done = false)
    (hanswers : true ∉ s.answers) (hplain : ∀ frame ∈ s.feed.appended, frame.isTerminal = false) :
    s.Inv maxBuffer := by
  refine ⟨hsound, hfresh, fun _ => ⟨hopen, hanswers, hplain⟩, ?_⟩
  intro hover
  rw [hrunning] at hover
  cases hover

theorem Inv.of_over (hsound : s.feed.Sound maxBuffer) (hover : s.task.done = true)
    (hdone : s.feed.run.done = true) (hterminal : OneTerminal s.feed.appended) :
    s.Inv maxBuffer := by
  refine ⟨hsound, ?_, ?_, fun _ => ⟨hdone, hterminal⟩⟩
  · intro hcreated
    rw [hcreated] at hover
    cases hover
  · intro hrunning
    rw [hover] at hrunning
    cases hrunning

theorem inv_init (maxBuffer : Nat) : ({} : Manager).Inv maxBuffer := by
  refine Inv.of_running (Feed.sound_init maxBuffer) (by decide) rfl rfl (by decide) ?_
  intro frame hframe
  exact absurd hframe (by simp)

/-- Frames without a terminal one, and a terminal one after them. -/
theorem oneTerminal_concat {frames : List Frame} {last : Frame} (hlast : last.isTerminal = true)
    (h : ∀ frame ∈ frames, frame.isTerminal = false) : OneTerminal (frames ++ [last]) :=
  ⟨frames, last, rfl, hlast, h⟩

theorem inv_runSegment (h : s.Inv maxBuffer) (hrunning : s.task.done = false) {seg : Segment}
    (hseg : seg.Orderly) : (s.runSegment maxBuffer taskId seg).Inv maxBuffer := by
  obtain ⟨hdone, hanswers, hplain⟩ := h.running hrunning
  obtain ⟨frames, exit⟩ := seg
  obtain ⟨hrun, hopen, happ⟩ := @Feed.appends_run maxBuffer s.feed hdone frames
  have hsound := hrun.invariant (Feed.sound_step maxBuffer) h.sound
  cases exit with
  | none =>
      have hframes : ∀ frame ∈ frames, frame.isTerminal = false := hseg
      have hfresh : DriveTask.suspended false ≠ .created true := by decide
      refine Inv.of_running hsound hfresh rfl hopen hanswers ?_
      show ∀ frame ∈ (frames.foldl (Feed.append maxBuffer) s.feed).appended, _
      rw [happ]
      intro frame hframe
      rcases List.mem_append.mp hframe with hf | hf
      · exact hplain frame hf
      · exact hframes frame hf
  | some exit =>
      have hbase : exit ≠ .baseException := by
        rintro rfl
        exact hseg
      rw [runSegment_exit s frames hbase]
      obtain ⟨⟨l, hclose⟩, hclosed, hall⟩ := @close_run maxBuffer taskId exit
        (frames.foldl (Feed.append maxBuffer) s.feed) hopen
      refine Inv.of_over (hclose.invariant (Feed.sound_step maxBuffer) hsound) rfl hclosed ?_
      rw [happ] at hall
      rw [hall]
      by_cases hended : exit = .ended
      · -- the producer reported the end itself
        subst hended
        obtain ⟨before, last, hframes, hterminal, hbefore⟩ :
          ∃ (before : List Frame) (last : Frame), frames = before ++ [last] ∧
            last.isTerminal = true ∧ ∀ frame ∈ before, frame.isTerminal = false := hseg
        show OneTerminal ((s.feed.appended ++ frames) ++ [])
        rw [List.append_nil, hframes, ← List.append_assoc]
        refine oneTerminal_concat hterminal ?_
        intro frame hframe
        rcases List.mem_append.mp hframe with hf | hf
        · exact hplain frame hf
        · exact hbefore frame hf
      · obtain ⟨last, hlast, hterminal⟩ := @terminal_of_raised taskId exit hended hbase
        have hframes : ∀ frame ∈ frames, frame.isTerminal = false := by
          cases exit with
          | ended => exact absurd rfl hended
          | baseException => exact absurd rfl hbase
          | cancelledError => exact hseg
          | budgetExceeded dimension limit actual text => exact hseg
          | guardrailTripwire finding => exact hseg
          | exception text => exact hseg
        rw [hlast]
        refine oneTerminal_concat hterminal ?_
        intro frame hframe
        rcases List.mem_append.mp hframe with hf | hf
        · exact hplain frame hf
        · exact hframes frame hf

theorem inv_cancel (h : s.Inv maxBuffer) (hstarted : s.task.started = true) :
    s.cancel.Inv maxBuffer := by
  rw [cancel]
  split
  · rename_i hdone
    refine ⟨h.sound, h.fresh, ?_, h.ended⟩
    intro hrunning
    rw [(h.running hrunning).1] at hdone
    cases hdone
  · rename_i hopen
    split
    · rename_i hover
      exact absurd (h.ended hover).1 hopen
    · rename_i hrunning
      have hrunning' : s.task.done = false := by simpa using hrunning
      obtain ⟨feed, task, awaiting, answers⟩ := s
      cases task with
      -- The request is noted; the producer sees it when it is next run.
      | suspended cancelling =>
          obtain ⟨hdone, hanswers, hplain⟩ := h.running rfl
          have hfresh : DriveTask.suspended true ≠ .created true := by decide
          exact Inv.of_running h.sound hfresh rfl hdone hanswers hplain
      | created cancelling => cases hstarted
      | finished => cases hrunning'
      | cancelledAtEntry => cases hrunning'
      | crashed => cases hrunning'

theorem inv_step (h : s.Inv maxBuffer) {a : ManagerAction} (hstep : Step maxBuffer taskId s a t)
    (ha : a.Orderly s) : t.Inv maxBuffer := by
  cases hstep with
  | first seg htask => exact inv_runSegment h (by rw [htask]; rfl) ha
  | next seg htask => exact inv_runSegment h (by rw [htask]; rfl) ha
  | cancelAtEntry htask => exact absurd htask h.fresh
  | cancel => exact inv_cancel h ha
  | cancelReturns hawait hover =>
      refine ⟨h.sound, h.fresh, ?_, h.ended⟩
      intro hrunning
      have hsame : s.task.done = false := hrunning
      rw [hover] at hsame
      cases hsame
  | subscribe lastEventId =>
      exact ⟨Feed.sound_step maxBuffer _ _ _ h.sound (.subscribe lastEventId), h.fresh, h.running,
        h.ended⟩
  | resume hfeed =>
      have hsound := Feed.sound_step maxBuffer _ _ _ h.sound hfeed
      cases hfeed with
      | resume hsub hresume => exact ⟨hsound, h.fresh, h.running, h.ended⟩

/-- A frame that `_drive` adds ends the task, and stays the last one. -/
def Ended (taskId : String) (h : List ManagerAction) (s : Manager) : Prop :=
  ∀ seg exit frame, .drive seg ∈ h → seg.exit = some exit → exit.terminal taskId = some frame →
    s.task = .finished ∧ s.feed.appended.getLast? = some frame

theorem ended_snoc {h : List ManagerAction} {a : ManagerAction} (hs : s.Ended taskId h)
    (ha : ∀ seg, a ≠ .drive seg) (htask : s.task = .finished → t.task = .finished)
    (hfeed : t.feed.appended = s.feed.appended) : t.Ended taskId (h ++ [a]) := by
  intro seg exit frame hmem hexit hterminal
  rcases List.mem_append.mp hmem with hmem | hmem
  · obtain ⟨hfinished, hlast⟩ := hs seg exit frame hmem hexit hterminal
    exact ⟨htask hfinished, by rw [hfeed, hlast]⟩
  · exact absurd (List.mem_singleton.mp hmem).symm (ha seg)

theorem ended_runSegment {h : List ManagerAction} (hs : s.Ended taskId h)
    (hrunning : s.task.done = false) (seg : Segment) :
    (s.runSegment maxBuffer taskId seg).Ended taskId (h ++ [.drive seg]) := by
  intro seg' exit frame hmem hexit hterminal
  rcases List.mem_append.mp hmem with hmem | hmem
  · obtain ⟨hfinished, -⟩ := hs seg' exit frame hmem hexit hterminal
    rw [hfinished] at hrunning
    cases hrunning
  · have heq : seg' = seg := by simpa using hmem
    subst heq
    obtain ⟨frames, exit'⟩ := seg'
    cases hexit
    have hbase : exit ≠ .baseException := by
      rintro rfl
      cases hterminal
    rw [runSegment_exit s frames hbase]
    refine ⟨rfl, ?_⟩
    simp [close, hterminal, Feed.append, Feed.finish]

theorem ended_step {h : List ManagerAction} (hs : s.Ended taskId h) {a : ManagerAction}
    (hstep : Step maxBuffer taskId s a t) : t.Ended taskId (h ++ [a]) := by
  cases hstep with
  | first seg htask => exact ended_runSegment hs (by rw [htask]; rfl) seg
  | next seg htask => exact ended_runSegment hs (by rw [htask]; rfl) seg
  | cancelAtEntry htask =>
      refine ended_snoc hs (by simp) ?_ rfl
      intro hfinished
      rw [htask] at hfinished
      cases hfinished
  | cancel =>
      refine ended_snoc hs (by simp) ?_ ?_ <;> unfold cancel
      · intro hfinished
        simp [hfinished, DriveTask.done]
        split <;> rfl
      · split
        · rfl
        · split <;> rfl
  | cancelReturns hawait hover => exact ended_snoc hs (by simp) id rfl
  | subscribe lastEventId => exact ended_snoc hs (by simp) id rfl
  | resume hfeed =>
      cases hfeed with
      | resume hsub hresume => exact ended_snoc hs (by simp) id rfl

/-- **The frame of `_drive` is the last one.** -/
theorem ended_of_run {h : List ManagerAction} (hrun : Run (Step maxBuffer taskId) {} h s) :
    s.Ended taskId h := by
  refine hrun.log_invariant (P := fun h s => s.Ended taskId h) ?_ ?_
  · intro h s a t hs hstep
    exact ended_step hs hstep
  · intro seg exit frame hmem
    cases hmem

/-- Once the run is done, whatever happens to the manager is a step of its feed or leaves the
feed alone. -/
theorem closed_step {k : Nat} {lastEventId : Int} (s : Manager) (a : ManagerAction) (t : Manager)
    (h : s.feed.Closed maxBuffer k lastEventId ∧ s.task.done = true)
    (hstep : Step maxBuffer taskId s a t) :
    (t.feed.Closed maxBuffer k lastEventId ∧ t.task.done = true) ∧
      t.feed.rank k + (if a.isResume k then 1 else 0) ≤ s.feed.rank k := by
  obtain ⟨hclosed, hover⟩ := h
  cases hstep with
  | first seg htask =>
      rw [htask] at hover
      cases hover
  | next seg htask =>
      rw [htask] at hover
      cases hover
  | cancelAtEntry htask =>
      rw [htask] at hover
      cases hover
  | cancel =>
      have hsame : s.cancel = { s with answers := s.answers ++ [false] } := by
        rw [cancel, if_pos hclosed.done]
      rw [hsame]
      exact ⟨⟨hclosed, hover⟩, Nat.le_refl _⟩
  | cancelReturns hawait _ => exact ⟨⟨hclosed, hover⟩, Nat.le_refl _⟩
  -- Only the feed moves on: late subscribers come, and those there are served.
  | subscribe other =>
      obtain ⟨hnext, hrank⟩ := Feed.closed_step s.feed _ _ hclosed (.subscribe other)
      exact ⟨⟨hnext, hover⟩, hrank⟩
  | resume hfeed =>
      obtain ⟨hnext, hrank⟩ := Feed.closed_step s.feed _ _ hclosed hfeed
      exact ⟨⟨hnext, hover⟩, hrank⟩

theorem subscriber_terminates (hs : s.feed.Sound maxBuffer) (hdone : s.feed.run.done = true)
    (hover : s.task.done = true) {k : Nat} {sub : Subscriber}
    (hk : s.feed.subscribers[k]? = some sub) :
    Terminates (Step maxBuffer taskId) (ManagerAction.isResume k)
      (fun t => ∃ sub', t.feed.subscribers[k]? = some sub' ∧ sub'.phase = .returned) s := by
  have hclosed : s.feed.Closed maxBuffer k sub.lastEventId := ⟨hs, hdone, sub, hk, rfl⟩
  refine Terminates.of_rank (fun t => t.feed.rank k) closed_step ?_ ?_ ⟨hclosed, hover⟩
  · intro t ht hzero
    obtain ⟨sub', hsub', -⟩ := ht.1.subscriber
    rw [Feed.rank_eq hsub'] at hzero
    have hsound := ht.1.sound.subscribers sub' (List.mem_of_getElem? hsub')
    exact ⟨sub', hsub', Subscriber.rank_eq_zero ht.1.done hsound hzero⟩
  · intro t ht
    obtain ⟨sub', hsub', -⟩ := ht.1.subscriber
    have hsound := ht.1.sound.subscribers sub' (List.mem_of_getElem? hsub')
    rcases Subscriber.exists_resume ht.1.done hsound with hreturned | ⟨next, hnext⟩
    · exact Or.inl ⟨sub', hsub', hreturned⟩
    · refine Or.inr ⟨.resume k, _, ?_, Step.resume (Feed.Step.resume hsub' hnext)⟩
      simp [ManagerAction.isResume]

/-- A run that is over with one terminal frame has settled. -/
theorem Inv.settled (h : s.Inv maxBuffer) (hmax : 1 ≤ maxBuffer) (hover : s.task.done = true) :
    s.Settled maxBuffer taskId := by
  obtain ⟨hdone, hterminal⟩ := h.ended hover
  refine ⟨hdone, hterminal, ?_, fun k sub hk => subscriber_terminates h.sound hdone hover hk⟩
  obtain ⟨before, last, happ, -, -⟩ := hterminal
  have hlen : s.feed.appended.length = before.length + 1 := by simp [happ]
  have hbase := h.sound.windowed.baseSeq
  rw [h.sound.windowed.events]
  exact Replay.getLast?_window (Or.inl (by omega))

end Manager

/-- The steps of a run in which the task starts before it is cancelled and the producer is
orderly. -/
def OrderlyStep (maxBuffer : Nat) (taskId : String) (s : Manager) (a : ManagerAction)
    (t : Manager) : Prop :=
  Manager.Step maxBuffer taskId s a t ∧ a.Orderly s

/-- **Every orderly run settles** once a cancellation has succeeded or the task is over. -/
theorem run_settles {maxBuffer : Nat} (hmax : 1 ≤ maxBuffer) {taskId : String}
    {l : List ManagerAction} {s : Manager} (hrun : Run (OrderlyStep maxBuffer taskId) {} l s)
    (h : true ∈ s.answers ∨ s.task.done = true) : s.Settled maxBuffer taskId := by
  have hinv : s.Inv maxBuffer :=
    hrun.invariant (P := Manager.Inv maxBuffer)
      (fun _ _ _ hi hstep => Manager.inv_step hi hstep.1 hstep.2) (Manager.inv_init maxBuffer)
  refine hinv.settled hmax ?_
  rcases h with hanswer | hover
  · by_contra hrunning
    exact (hinv.running (by simpa using hrunning)).2.1 hanswer
  · exact hover

/-- A producer that is cancelled while it waits, with a subscriber that has read its frame. -/
theorem run_settles_after_cancel : ∃ l s,
    Run (OrderlyStep 5000 "task-1") {} l s ∧ s.answers = [true] ∧
    s.feed.subscribers[0]? = some ⟨-1, .looping 1, [(⟨"node_start", .none⟩, 0)]⟩ ∧
    s.Settled 5000 "task-1" := by
  have hnode : (⟨[⟨"node_start", .none⟩], none⟩ : Segment).Orderly := by
    intro frame hframe
    rw [List.mem_singleton.mp hframe]
    decide
  have hcancelled : (⟨[], some .cancelledError⟩ : Segment).Orderly :=
    fun frame h => absurd h (by simp)
  -- the subscriber waits, is woken by the frame and reads it
  have hsubscribed : OrderlyStep 5000 "task-1" {} (.subscribe (-1)) _ := ⟨.subscribe (-1), trivial⟩
  have h₁ := Run.single hsubscribed
  have h₂ := h₁.snoc (o := ManagerAction.resume 0) ⟨.resume (k := 0) (.resume rfl rfl), trivial⟩
  have h₃ := h₂.snoc (o := ManagerAction.drive ⟨[⟨"node_start", .none⟩], none⟩)
    ⟨.first _ rfl, hnode⟩
  have h₄ := h₃.snoc (o := ManagerAction.resume 0) ⟨.resume (k := 0) (.resume rfl rfl), trivial⟩
  have h₅ := h₄.snoc (o := ManagerAction.resume 0) ⟨.resume (k := 0) (.resume rfl rfl), trivial⟩
  have h₆ := h₅.snoc (o := ManagerAction.resume 0) ⟨.resume (k := 0) (.resume rfl rfl), trivial⟩
  have h₇ := h₆.snoc (o := ManagerAction.cancel) ⟨.cancel, rfl⟩
  have h₈ := h₇.snoc (o := ManagerAction.drive ⟨[], some .cancelledError⟩) ⟨.next _ rfl, hcancelled⟩
  have hrun := h₈.snoc (o := ManagerAction.cancelReturns) ⟨.cancelReturns (by decide) rfl, trivial⟩
  exact ⟨_, _, hrun, rfl, rfl, run_settles (by decide) hrun (Or.inl (by decide))⟩

/-! ## A cancellation before the first step -/

/-- The body never ran: nothing is written any more and a waiting subscriber stays where it is. -/
def Manager.Abandoned (s : Manager) : Prop :=
  s.task = .cancelledAtEntry ∧ s.feed.run.done = false ∧ s.feed.appended = [] ∧
    s.feed.subscribers[0]? = some ⟨-1, .waiting 0, []⟩

theorem Manager.abandoned_step {maxBuffer : Nat} {taskId : String} (s : Manager)
    (a : ManagerAction) (t : Manager) (h : s.Abandoned) (hstep : Step maxBuffer taskId s a t) :
    t.Abandoned := by
  obtain ⟨htask, hopen, happ, hsub⟩ := h
  cases hstep with
  | first seg hcreated => rw [htask] at hcreated; cases hcreated
  | next seg hsuspended => rw [htask] at hsuspended; cases hsuspended
  | cancelAtEntry hcreated => rw [htask] at hcreated; cases hcreated
  -- A second cancel is answered, but the task that would end the run never steps.
  | cancel =>
      have hsame : s.cancel = { s with answers := s.answers ++ [true] } := by
        rw [cancel, hopen, htask]
        rfl
      rw [hsame]
      exact ⟨htask, hopen, happ, hsub⟩
  | cancelReturns hawait hover => exact ⟨htask, hopen, happ, hsub⟩
  | subscribe lastEventId =>
      refine ⟨htask, hopen, happ, ?_⟩
      show (s.feed.subscribers ++ [Subscriber.enter s.feed.run lastEventId])[0]? = _
      rw [List.getElem?_append_left (List.getElem?_eq_some_iff.mp hsub).1]
      exact hsub
  | resume hfeed =>
      cases hfeed with
      | resume hget hresume =>
          rename_i k old new
          refine ⟨htask, hopen, happ, ?_⟩
          show (s.feed.subscribers.set k new)[0]? = _
          by_cases hk : k = 0
          · subst hk
            rw [hsub] at hget
            cases hget
            cases hresume
          · rw [List.getElem?_set_ne hk]
            exact hsub

/-- **A run cancelled before its first step never ends.** `cancel` has answered `True`, there is
no frame at all, the run is not done and the subscriber waits in every continuation. -/
theorem cancelled_before_first_step : ∃ s,
    Run (Manager.Step 5000 "task-1") {}
      [.subscribe (-1), .resume 0, .cancel, .cancelAtEntry, .cancelReturns] s ∧
    s.answers = [true] ∧ s.feed.appended = [] ∧ s.feed.run.done = false ∧
    (∀ l t, Run (Manager.Step 5000 "task-1") s l t → t.Abandoned) ∧
    ¬ s.Settled 5000 "task-1" := by
  have h₁ := (@Run.refl _ _ (Manager.Step 5000 "task-1") {}).snoc (.subscribe (-1))
  have h₂ := h₁.snoc (.resume (k := 0) (.resume rfl rfl))
  have h₃ := h₂.snoc .cancel
  have h₄ := h₃.snoc (.cancelAtEntry rfl)
  have h₅ := h₄.snoc (.cancelReturns (by decide) rfl)
  refine ⟨_, h₅, by decide, rfl, rfl, ?_, ?_⟩
  · intro l t hrun
    exact hrun.invariant Manager.abandoned_step ⟨rfl, rfl, rfl, rfl⟩
  · intro hsettled
    cases hsettled.done

end AgentRoom
