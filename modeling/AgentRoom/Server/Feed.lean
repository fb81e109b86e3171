import AgentRoom.Server.Runs
import AgentRoom.Lib.Replay

set_option autoImplicit false

/-! # The buffer is a window of the appended frames

Whatever the interleaving, the buffer holds the newest `max_buffer` of the frames appended so
far under their numbers (`Feed.Windowed`), and every subscriber has been given, in order, frames
above its `last_event_id`, among them every frame below its position that is still buffered
(`Subscriber.Sound`).
-/

namespace AgentRoom

open Replay

namespace Feed

/-- The buffer holds the newest frames. -/
structure Windowed (maxBuffer : Nat) (s : Feed) : Prop where
  baseSeq : s.run.baseSeq = s.appended.length - maxBuffer
  events : s.run.events = window s.appended s.run.baseSeq

namespace Windowed

variable {maxBuffer : Nat} {s : Feed} (h : s.Windowed maxBuffer)

include h

theorem baseSeq_le : s.run.baseSeq ≤ s.appended.length := by
  rw [h.baseSeq]
  exact Nat.sub_le _ _

theorem endSeq : s.run.endSeq = s.appended.length := by
  have hle := h.baseSeq_le
  rw [RunBuffer.endSeq, congrArg List.length h.events, length_window]
  omega

/-- Appending drops what no longer fits. -/
theorem append (frame : Frame) : (s.append maxBuffer frame).Windowed maxBuffer := by
  have hle := h.baseSeq_le
  have hbase := h.baseSeq
  have hevents : s.run.events ++ [(frame, s.run.endSeq)] =
      window (s.appended ++ [frame]) s.run.baseSeq := by
    rw [window_concat frame hle, h.endSeq, h.events]
  have hlen : (window (s.appended ++ [frame]) s.run.baseSeq).length =
      s.appended.length + 1 - s.run.baseSeq := by
    rw [length_window, List.length_append, List.length_singleton]
  by_cases hfull : maxBuffer < s.appended.length + 1 - s.run.baseSeq
  · have hrun : s.run.append maxBuffer frame =
        { s.run with
          events := window (s.appended ++ [frame])
            (s.run.baseSeq + (s.appended.length + 1 - s.run.baseSeq - maxBuffer))
          baseSeq := s.run.baseSeq + (s.appended.length + 1 - s.run.baseSeq - maxBuffer) } := by
      rw [← drop_window, RunBuffer.append, hevents, hlen, if_pos hfull]
    refine ⟨?_, ?_⟩
    · show (s.run.append maxBuffer frame).baseSeq = (s.appended ++ [frame]).length - maxBuffer
      rw [hrun, List.length_append, List.length_singleton]
      show s.run.baseSeq + (s.appended.length + 1 - s.run.baseSeq - maxBuffer) = _
      omega
    · show (s.run.append maxBuffer frame).events = _
      rw [Feed.append, hrun]
  · have hrun : s.run.append maxBuffer frame =
        { s.run with events := window (s.appended ++ [frame]) s.run.baseSeq } := by
      rw [RunBuffer.append, hevents, hlen, if_neg hfull]
    refine ⟨?_, ?_⟩
    · show (s.run.append maxBuffer frame).baseSeq = (s.appended ++ [frame]).length - maxBuffer
      rw [hrun, List.length_append, List.length_singleton]
      show s.run.baseSeq = _
      omega
    · show (s.run.append maxBuffer frame).events = _
      rw [Feed.append, hrun]

/-- The slice of a subscriber. -/
theorem slice {idx : Int} (hidx : 0 ≤ idx) :
    s.run.slice idx = window s.appended (max idx.toNat s.run.baseSeq) := by
  rw [RunBuffer.slice]
  split
  · rename_i hstart
    rw [h.events, drop_window]
    congr 1
    omega
  · rename_i hstart
    rw [h.events]
    congr 1
    omega

end Windowed

theorem windowed_init (maxBuffer : Nat) : ({} : Feed).Windowed maxBuffer := by
  refine ⟨?_, rfl⟩
  show 0 = 0 - maxBuffer
  omega

theorem windowed_step {maxBuffer : Nat} {s t : Feed} {a : FeedAction} (h : s.Windowed maxBuffer)
    (hstep : Step maxBuffer s a t) : t.Windowed maxBuffer := by
  cases hstep with
  | append frame _ => exact h.append frame
  | finish _ => exact ⟨h.baseSeq, h.events⟩
  | subscribe _ => exact ⟨h.baseSeq, h.events⟩
  | resume _ _ => exact ⟨h.baseSeq, h.events⟩

end Feed

/-! ## Subscribers -/

namespace Subscriber

/-- The frames read but not yet yielded. -/
def pending (sub : Subscriber) : List BufferedFrame :=
  match sub.phase with
  | .yielding frames _ _ => frames
  | _ => []

/-- The number below which it reads nothing any more. -/
def position (s : Feed) (sub : Subscriber) : Nat :=
  match sub.phase with
  | .looping idx => idx.toNat
  | .waiting idx => idx.toNat
  | .yielding _ bufferedEnd _ => bufferedEnd
  | .returned => s.appended.length

/-- What holds of the position: it never falls behind the start, runs ahead of the log only at
the start, and a subscriber waits only while there is nothing to read and the run goes on. -/
def Placed (s : Feed) (sub : Subscriber) : Prop :=
  match sub.phase with
  | .looping idx =>
      sub.lastEventId < idx ∧ 0 ≤ idx ∧ idx ≤ max (sub.lastEventId + 1) s.appended.length
  | .waiting idx =>
      (sub.lastEventId < idx ∧ 0 ≤ idx ∧ idx ≤ max (sub.lastEventId + 1) s.appended.length) ∧
        (s.appended.length : Int) ≤ idx ∧ s.run.done = false
  | .yielding _ bufferedEnd done =>
      bufferedEnd ≤ s.appended.length ∧ (done = false → sub.lastEventId < bufferedEnd) ∧
        (done = true → s.run.done = true ∧ bufferedEnd = s.appended.length)
  | .returned => s.run.done = true

/-- What a subscriber was given. -/
structure Sound (s : Feed) (sub : Subscriber) : Prop where
  delivered : Delivered s.appended (sub.position s) (sub.yielded ++ sub.pending)
  later : ∀ x ∈ sub.yielded ++ sub.pending, sub.lastEventId < x.2
  complete : ∀ i : Nat, sub.lastEventId < i → i < sub.position s → s.run.baseSeq ≤ i →
    i < s.appended.length → ∃ frame, (frame, i) ∈ sub.yielded ++ sub.pending
  placed : sub.Placed s

variable {maxBuffer : Nat} {s : Feed}

theorem sound_enter (h : s.Windowed maxBuffer) (lastEventId : Int) :
    (enter s.run lastEventId).Sound s := by
  have hle := h.baseSeq_le
  refine ⟨Delivered.nil _ _, ?_, ?_, ?_⟩
  · intro x hx
    exact absurd hx (by simp [enter, pending])
  · intro i hgt hpos hbase _
    have hidx : i < (max (lastEventId + 1) (s.run.baseSeq : Int)).toNat := hpos
    have hgt' : lastEventId < i := hgt
    omega
  · show lastEventId < max (lastEventId + 1) (s.run.baseSeq : Int) ∧
      0 ≤ max (lastEventId + 1) (s.run.baseSeq : Int) ∧
      max (lastEventId + 1) (s.run.baseSeq : Int) ≤ max (lastEventId + 1) s.appended.length
    omega

/-- Taking the slice. -/
theorem sound_read (h : s.Windowed maxBuffer) {lastEventId idx : Int}
    {yielded : List BufferedFrame} (hsub : Sound s ⟨lastEventId, .looping idx, yielded⟩)
    (hgo : ¬ ((s.run.endSeq : Int) ≤ idx ∧ s.run.done = false)) :
    Sound s ⟨lastEventId, .yielding (s.run.slice idx) s.run.endSeq s.run.done, yielded⟩ := by
  have hgt : lastEventId < idx := hsub.placed.1
  have hnonneg : 0 ≤ idx := hsub.placed.2.1
  have hslice := h.slice hnonneg
  have hend := h.endSeq
  have hdelivered : Delivered s.appended idx.toNat yielded := by
    have := hsub.delivered
    rwa [show (⟨lastEventId, .looping idx, yielded⟩ : Subscriber).pending = [] from rfl,
      List.append_nil] at this
  have hlater : ∀ x ∈ yielded, lastEventId < x.2 :=
    fun x hx => hsub.later x (List.mem_append_left _ hx)
  refine ⟨?_, ?_, ?_, ?_⟩
  · show Delivered s.appended s.run.endSeq (yielded ++ s.run.slice idx)
    rw [hslice, hend]
    exact hdelivered.append_window (Nat.le_max_left _ _)
  · show ∀ x ∈ yielded ++ s.run.slice idx, lastEventId < x.2
    intro x hx
    rcases List.mem_append.mp hx with hx | hx
    · exact hlater x hx
    · rw [hslice] at hx
      have hge := (mem_window.mp hx).1
      omega
  · intro i hi _ hbase hlen
    show ∃ frame, (frame, i) ∈ yielded ++ s.run.slice idx
    by_cases hold : i < idx.toNat
    · obtain ⟨frame, hframe⟩ := hsub.complete i hi hold hbase hlen
      have hmem : (frame, i) ∈ yielded ++ [] := hframe
      rw [List.append_nil] at hmem
      exact ⟨frame, List.mem_append_left _ hmem⟩
    · refine ⟨s.appended[i], List.mem_append_right _ ?_⟩
      rw [hslice]
      refine mem_window.mpr ⟨by show max idx.toNat s.run.baseSeq ≤ i; omega, ?_⟩
      exact List.getElem?_eq_getElem hlen
  · refine ⟨hend.le, ?_, fun hdone => ⟨hdone, hend⟩⟩
    intro hdone
    have : (s.run.endSeq : Int) > idx := by
      by_contra hcon
      exact hgo ⟨by omega, hdone⟩
    show lastEventId < s.run.endSeq
    omega

/-- One step of the subscriber itself. -/
theorem sound_resume (h : s.Windowed maxBuffer) {sub sub' : Subscriber} (hsub : sub.Sound s)
    (hstep : sub.resume s.run = some sub') : sub'.Sound s := by
  obtain ⟨lastEventId, phase, yielded⟩ := sub
  cases phase with
  | looping idx =>
      by_cases hwait : (s.run.endSeq : Int) ≤ idx ∧ s.run.done = false
      · have hnext : resume s.run ⟨lastEventId, .looping idx, yielded⟩ =
            some ⟨lastEventId, .waiting idx, yielded⟩ := if_pos hwait
        rw [hnext] at hstep
        cases hstep
        have hle : (s.appended.length : Int) ≤ idx := by
          rw [← h.endSeq]
          exact hwait.1
        exact ⟨hsub.delivered, hsub.later, hsub.complete, hsub.placed, hle, hwait.2⟩
      · have hnext : resume s.run ⟨lastEventId, .looping idx, yielded⟩ =
            some ⟨lastEventId, .yielding (s.run.slice idx) s.run.endSeq s.run.done, yielded⟩ :=
          if_neg hwait
        rw [hnext] at hstep
        cases hstep
        exact sound_read h hsub hwait
  | waiting idx => cases hstep
  | yielding frames bufferedEnd done =>
      cases frames with
      | cons frame frames =>
          cases hstep
          -- the next frame moves from what is pending to what is yielded
          have hsplit : yielded ++ (frame :: frames) = (yielded ++ [frame]) ++ frames := by simp
          have hdelivered := hsub.delivered
          have hlater := hsub.later
          have hcomplete := hsub.complete
          simp only [pending, hsplit] at hdelivered hlater hcomplete
          exact ⟨hdelivered, hlater, hcomplete, hsub.placed⟩
      | nil =>
          cases hstep
          obtain ⟨hle, hopen, hclosed⟩ := hsub.placed
          cases done with
          | true =>
              obtain ⟨hdone, hend⟩ := hclosed rfl
              have hdelivered := hsub.delivered
              have hcomplete := hsub.complete
              simp only [position, hend] at hdelivered hcomplete
              exact ⟨hdelivered, hsub.later, hcomplete, hdone⟩
          | false =>
              have hgt : lastEventId < bufferedEnd := hopen rfl
              have hplaced : lastEventId < (bufferedEnd : Int) ∧ 0 ≤ (bufferedEnd : Int) ∧
                  (bufferedEnd : Int) ≤ max (lastEventId + 1) s.appended.length := by omega
              exact ⟨hsub.delivered, hsub.later, hsub.complete, hplaced⟩
  | returned => cases hstep

theorem notify_pending (sub : Subscriber) : sub.notify.pending = sub.pending := by
  obtain ⟨lastEventId, phase, yielded⟩ := sub
  cases phase <;> rfl

theorem notify_yielded (sub : Subscriber) : sub.notify.yielded = sub.yielded := by
  obtain ⟨lastEventId, phase, yielded⟩ := sub
  cases phase <;> rfl

theorem notify_lastEventId (sub : Subscriber) : sub.notify.lastEventId = sub.lastEventId := by
  obtain ⟨lastEventId, phase, yielded⟩ := sub
  cases phase <;> rfl

/-- Only its own start puts a subscriber ahead of the log. -/
theorem Sound.position_le {sub : Subscriber} (h : sub.Sound s) :
    sub.position s ≤ s.appended.length ∨ (sub.position s : Int) ≤ sub.lastEventId + 1 := by
  have hplaced := h.placed
  obtain ⟨lastEventId, phase, yielded⟩ := sub
  cases phase with
  | looping idx =>
      obtain ⟨hgt, hnonneg, hle⟩ : lastEventId < idx ∧ 0 ≤ idx ∧
        idx ≤ max (lastEventId + 1) s.appended.length := hplaced
      show idx.toNat ≤ _ ∨ (idx.toNat : Int) ≤ lastEventId + 1
      omega
  | waiting idx =>
      obtain ⟨hgt, hnonneg, hle⟩ : lastEventId < idx ∧ 0 ≤ idx ∧
        idx ≤ max (lastEventId + 1) s.appended.length := hplaced.1
      show idx.toNat ≤ _ ∨ (idx.toNat : Int) ≤ lastEventId + 1
      omega
  | yielding frames bufferedEnd done => exact Or.inl hplaced.1
  | returned => exact Or.inl (Nat.le_refl _)

/-- A notification moves nobody. -/
theorem position_notify {t : Feed} {sub : Subscriber}
    (hreturned : sub.phase = .returned → t.appended = s.appended) :
    sub.notify.position t = sub.position s := by
  obtain ⟨lastEventId, phase, yielded⟩ := sub
  cases phase with
  | looping idx => rfl
  | waiting idx => rfl
  | yielding frames bufferedEnd done => rfl
  | returned => exact congrArg List.length (hreturned rfl)

/-- Only the end of the run lets a subscriber return. -/
theorem Sound.done_of_returned {sub : Subscriber} (h : sub.Sound s)
    (hreturned : sub.phase = .returned) : s.run.done = true := by
  have hplaced := h.placed
  rwa [Placed, hreturned] at hplaced

theorem placed_append {sub : Subscriber} (hdone : s.run.done = false) (hplaced : sub.Placed s)
    (frame : Frame) : sub.notify.Placed (s.append maxBuffer frame) := by
  have hlen : (s.append maxBuffer frame).appended.length = s.appended.length + 1 := by
    show (s.appended ++ [frame]).length = _
    simp
  obtain ⟨lastEventId, phase, yielded⟩ := sub
  cases phase with
  | looping idx =>
      obtain ⟨hgt, hnonneg, hle⟩ : lastEventId < idx ∧ 0 ≤ idx ∧
        idx ≤ max (lastEventId + 1) s.appended.length := hplaced
      show lastEventId < idx ∧ 0 ≤ idx ∧ idx ≤ max (lastEventId + 1) _
      omega
  | waiting idx =>
      obtain ⟨hgt, hnonneg, hle⟩ : lastEventId < idx ∧ 0 ≤ idx ∧
        idx ≤ max (lastEventId + 1) s.appended.length := hplaced.1
      show lastEventId < idx ∧ 0 ≤ idx ∧ idx ≤ max (lastEventId + 1) _
      omega
  | yielding frames bufferedEnd done =>
      obtain ⟨hle, hopen, hclosed⟩ := hplaced
      refine ⟨by omega, hopen, ?_⟩
      intro hd
      rw [(hclosed hd).1] at hdone
      cases hdone
  | returned =>
      have hreturned : s.run.done = true := hplaced
      rw [hreturned] at hdone
      cases hdone

/-- Another frame. -/
theorem sound_append (h : s.Windowed maxBuffer) (hdone : s.run.done = false) {sub : Subscriber}
    (hsub : sub.Sound s) (frame : Frame) : sub.notify.Sound (s.append maxBuffer frame) := by
  have hlen : (s.append maxBuffer frame).appended.length = s.appended.length + 1 := by
    show (s.appended ++ [frame]).length = _
    simp
  have hbase : s.run.baseSeq ≤ (s.append maxBuffer frame).run.baseSeq := by
    rw [(h.append frame).baseSeq, h.baseSeq, hlen]
    omega
  have hpos : sub.notify.position (s.append maxBuffer frame) = sub.position s :=
    position_notify fun hreturned =>
      absurd (hsub.done_of_returned hreturned) (by simp [hdone])
  have hbound := hsub.position_le
  refine ⟨?_, ?_, ?_, placed_append hdone hsub.placed frame⟩
  · rw [hpos, notify_yielded, notify_pending]
    exact hsub.delivered.concat frame
  · rw [notify_yielded, notify_pending, notify_lastEventId]
    exact hsub.later
  · rw [hpos, notify_yielded, notify_pending, notify_lastEventId, hlen]
    intro i hi hlt hbuffered hlast
    -- the new frame is above every position
    exact hsub.complete i hi hlt (hbase.trans hbuffered) (by omega)

/-- The end of the run. -/
theorem sound_finish {sub : Subscriber} (hsub : sub.Sound s) : sub.notify.Sound s.finish := by
  obtain ⟨hdelivered, hlater, hcomplete, hplaced⟩ := hsub
  obtain ⟨lastEventId, phase, yielded⟩ := sub
  cases phase with
  | looping idx => exact ⟨hdelivered, hlater, hcomplete, hplaced⟩
  | waiting idx => exact ⟨hdelivered, hlater, hcomplete, hplaced.1⟩
  | yielding frames bufferedEnd done =>
      exact ⟨hdelivered, hlater, hcomplete, hplaced.1, hplaced.2.1,
        fun hd => ⟨rfl, (hplaced.2.2 hd).2⟩⟩
  | returned => exact ⟨hdelivered, hlater, hcomplete, rfl⟩

/-- A step of another subscriber. -/
theorem sound_congr {t : Feed} {sub : Subscriber} (hsub : sub.Sound s) (hrun : t.run = s.run)
    (happended : t.appended = s.appended) : sub.Sound t := by
  obtain ⟨run, subscribers, appended⟩ := t
  subst hrun happended
  exact ⟨hsub.delivered, hsub.later, hsub.complete, hsub.placed⟩

end Subscriber

namespace Feed

/-- What every reachable feed satisfies. -/
structure Sound (maxBuffer : Nat) (s : Feed) : Prop where
  windowed : s.Windowed maxBuffer
  subscribers : ∀ sub ∈ s.subscribers, sub.Sound s

theorem sound_init (maxBuffer : Nat) : ({} : Feed).Sound maxBuffer := by
  refine ⟨windowed_init maxBuffer, ?_⟩
  intro sub hsub
  exact absurd hsub (by simp)

theorem sound_step (maxBuffer : Nat) (s : Feed) (a : FeedAction) (t : Feed)
    (h : s.Sound maxBuffer) (hstep : Step maxBuffer s a t) : t.Sound maxBuffer := by
  refine ⟨windowed_step h.windowed hstep, ?_⟩
  cases hstep with
  | append frame hdone =>
      intro sub hsub
      obtain ⟨sub, hmem, rfl⟩ := List.mem_map.mp hsub
      exact Subscriber.sound_append h.windowed hdone (h.subscribers sub hmem) frame
  | finish hdone =>
      intro sub hsub
      obtain ⟨sub, hmem, rfl⟩ := List.mem_map.mp hsub
      exact Subscriber.sound_finish (h.subscribers sub hmem)
  | subscribe lastEventId =>
      intro sub hsub
      rcases List.mem_append.mp hsub with hmem | hmem
      · exact Subscriber.sound_congr (h.subscribers sub hmem) rfl rfl
      · rw [List.mem_singleton.mp hmem]
        exact Subscriber.sound_congr (Subscriber.sound_enter h.windowed lastEventId) rfl rfl
  | resume hget hresume =>
      rename_i k old new
      intro sub hsub
      rcases List.mem_or_eq_of_mem_set hsub with hmem | rfl
      · exact Subscriber.sound_congr (h.subscribers sub hmem) rfl rfl
      · have hold := h.subscribers old (List.mem_of_getElem? hget)
        exact Subscriber.sound_congr (Subscriber.sound_resume h.windowed hold hresume) rfl rfl

end Feed

/-! ## What a step leaves of a subscriber -/

namespace Subscriber

variable {s : Feed} {sub : Subscriber}

theorem resume_lastEventId {sub' : Subscriber} (h : sub.resume s.run = some sub') :
    sub.lastEventId = sub'.lastEventId := by
  unfold resume at h
  split at h
  · split at h <;> cases h <;> rfl
  · cases h
  · cases h; rfl
  · cases h; rfl
  · cases h

theorem prefix_resume {sub' : Subscriber} (h : sub.resume s.run = some sub') :
    sub.yielded <+: sub'.yielded := by
  unfold resume at h
  split at h
  · split at h <;> cases h <;> exact List.prefix_rfl
  · cases h
  · cases h
    exact List.prefix_append _ _
  · cases h
    exact List.prefix_rfl
  · cases h

end Subscriber

/-- A subscriber keeps its place in the list, its start and what it has yielded. -/
theorem Feed.step_keeps {maxBuffer : Nat} {s t : Feed} {a : FeedAction}
    (hstep : Feed.Step maxBuffer s a t) {k : Nat} {sub : Subscriber}
    (hk : s.subscribers[k]? = some sub) :
    ∃ sub', t.subscribers[k]? = some sub' ∧ sub'.lastEventId = sub.lastEventId ∧
      sub.yielded <+: sub'.yielded := by
  have hnotify : (s.subscribers.map Subscriber.notify)[k]? = some sub.notify := by
    rw [List.getElem?_map, hk]
    rfl
  cases hstep with
  | append frame hopen =>
      exact ⟨sub.notify, hnotify, sub.notify_lastEventId, by rw [sub.notify_yielded]⟩
  | finish hopen =>
      exact ⟨sub.notify, hnotify, sub.notify_lastEventId, by rw [sub.notify_yielded]⟩
  | subscribe lastEventId =>
      refine ⟨sub, ?_, rfl, List.prefix_rfl⟩
      show (s.subscribers ++ [Subscriber.enter s.run lastEventId])[k]? = some sub
      rw [List.getElem?_append_left (List.getElem?_eq_some_iff.mp hk).1]
      exact hk
  | resume hget hresume =>
      rename_i j old new
      by_cases hjk : j = k
      · subst hjk
        rw [hk] at hget
        cases hget
        exact ⟨new, List.getElem?_set_self (List.getElem?_eq_some_iff.mp hk).1,
          (Subscriber.resume_lastEventId hresume).symm, Subscriber.prefix_resume hresume⟩
      · refine ⟨sub, ?_, rfl, List.prefix_rfl⟩
        show (s.subscribers.set j new)[k]? = some sub
        rw [List.getElem?_set_ne hjk]
        exact hk

/-! ## Subscribers of a buffer that was never trimmed -/

namespace Subscriber

variable {s : Feed} {sub : Subscriber}

/-- The number of the first frame a subscriber asks for. -/
def first (sub : Subscriber) : Nat := (sub.lastEventId + 1).toNat

theorem Sound.read_eq (h : sub.Sound s) (hbase : s.run.baseSeq = 0) (hlast : -1 ≤ sub.lastEventId) :
    sub.yielded ++ sub.pending =
      (window s.appended sub.first).take (sub.position s - sub.first) := by
  refine h.delivered.eq_window ?_ ?_
  · intro x hx
    have hlater := h.later x hx
    rw [first]
    omega
  · intro i hfirst hpos hlen
    rw [first] at hfirst
    exact h.complete i (by omega) hpos (by omega) hlen

/-- The frames come one after the other. -/
theorem Sound.yielded_get (h : sub.Sound s) (hbase : s.run.baseSeq = 0)
    (hlast : -1 ≤ sub.lastEventId) {m : Nat} {x : BufferedFrame} (hx : sub.yielded[m]? = some x) :
    x.2 = sub.first + m ∧ s.appended[sub.first + m]? = some x.1 := by
  have hall : (sub.yielded ++ sub.pending)[m]? = some x := by
    rw [List.getElem?_append_left (List.getElem?_eq_some_iff.mp hx).1]
    exact hx
  rw [h.read_eq hbase hlast] at hall
  obtain ⟨hlt, heq⟩ := List.getElem?_eq_some_iff.mp hall
  have hmem : x ∈ sub.yielded ++ sub.pending :=
    List.mem_append_left _ (List.mem_of_getElem? hx)
  have hnumber : x.2 = sub.first + m := by
    rw [← heq, List.getElem_take]
    simp [window]
  refine ⟨hnumber, ?_⟩
  rw [← hnumber]
  exact h.delivered.get hmem

/-- A subscriber that has returned was given everything from its first frame on. -/
theorem Sound.length_of_returned (h : sub.Sound s) (hbase : s.run.baseSeq = 0)
    (hlast : -1 ≤ sub.lastEventId) (hreturned : sub.phase = .returned) :
    sub.yielded.length = s.appended.length - sub.first := by
  have hall := congrArg List.length (h.read_eq hbase hlast)
  have hpending : sub.pending = [] := by rw [pending, hreturned]
  have hposition : sub.position s = s.appended.length := by rw [position, hreturned]
  rw [hpending, hposition, List.append_nil, List.length_take, length_window] at hall
  omega

end Subscriber

/-! ## Subscribers of a run that is done -/

namespace Subscriber

/-- How many steps it has left once the run is done. -/
def rank (run : RunBuffer) (sub : Subscriber) : Nat :=
  match sub.phase with
  | .looping idx => (run.slice idx).length + 2
  | .waiting _ => 0
  | .yielding frames _ true => frames.length + 1
  | .yielding frames bufferedEnd false =>
      frames.length + 1 + ((run.slice bufferedEnd).length + 2)
  | .returned => 0

variable {s : Feed} {sub : Subscriber}

/-- Once the run is done every step of a subscriber counts. -/
theorem rank_resume (hdone : s.run.done = true) {sub' : Subscriber}
    (h : sub.resume s.run = some sub') : sub'.rank s.run + 1 = sub.rank s.run := by
  obtain ⟨lastEventId, phase, yielded⟩ := sub
  cases phase with
  | looping idx =>
      have hgo : ¬ ((s.run.endSeq : Int) ≤ idx ∧ s.run.done = false) := by simp [hdone]
      have hnext : resume s.run ⟨lastEventId, .looping idx, yielded⟩ =
          some ⟨lastEventId, .yielding (s.run.slice idx) s.run.endSeq s.run.done, yielded⟩ :=
        if_neg hgo
      rw [hnext] at h
      cases h
      rw [hdone]
      rfl
  | waiting idx => cases h
  | yielding frames bufferedEnd done =>
      cases frames with
      | nil =>
          cases h
          cases done with
          | true => rfl
          | false =>
              show (s.run.slice bufferedEnd).length + 2 + 1 =
                [].length + 1 + ((s.run.slice bufferedEnd).length + 2)
              simp
              omega
      | cons frame frames =>
          cases h
          cases done with
          | true => rfl
          | false =>
              show frames.length + 1 + ((s.run.slice bufferedEnd).length + 2) + 1 =
                (frame :: frames).length + 1 + ((s.run.slice bufferedEnd).length + 2)
              rw [List.length_cons]
              omega
  | returned => cases h

/-- Once the run is done nobody waits. -/
theorem rank_eq_zero (hdone : s.run.done = true) (hsub : sub.Sound s) (h : sub.rank s.run = 0) :
    sub.phase = .returned := by
  have hplaced := hsub.placed
  obtain ⟨lastEventId, phase, yielded⟩ := sub
  cases phase with
  | looping idx => simp [rank] at h
  | waiting idx =>
      have hopen : s.run.done = false := hplaced.2.2
      rw [hdone] at hopen
      cases hopen
  | yielding frames bufferedEnd done => cases done <;> simp [rank] at h
  | returned => rfl

theorem exists_resume (hdone : s.run.done = true) (hsub : sub.Sound s) :
    sub.phase = .returned ∨ ∃ sub', sub.resume s.run = some sub' := by
  have hplaced := hsub.placed
  obtain ⟨lastEventId, phase, yielded⟩ := sub
  cases phase with
  | looping idx =>
      have hgo : ¬ ((s.run.endSeq : Int) ≤ idx ∧ s.run.done = false) := by simp [hdone]
      exact Or.inr ⟨_, if_neg hgo⟩
  | waiting idx =>
      have hopen : s.run.done = false := hplaced.2.2
      rw [hdone] at hopen
      cases hopen
  | yielding frames bufferedEnd done =>
      cases frames with
      | nil => exact Or.inr ⟨_, rfl⟩
      | cons frame frames => exact Or.inr ⟨_, rfl⟩
  | returned => exact Or.inl rfl

end Subscriber

end AgentRoom
