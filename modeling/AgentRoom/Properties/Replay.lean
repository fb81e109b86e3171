import AgentRoom.Server.Feed

set_option autoImplicit false

/-! # Replay is exact

A subscriber yields the frames above its `last_event_id` in order and under their own numbers.
It misses a frame only when the frame was trimmed before the subscriber got to it, and it ends
once the run is done, with the last frame.
-/

namespace AgentRoom

open Replay Transition

/-- The subscriber is past the frame with number `i`. -/
def Subscriber.Passed (sub : Subscriber) (i : Nat) : Prop :=
  sub.phase = .returned ∨ ∃ x ∈ sub.yielded, i < x.2

/-- A frame it should have yielded and will not. -/
def Subscriber.Missed (s : Feed) (sub : Subscriber) (i : Nat) : Prop :=
  sub.lastEventId < i ∧ i < s.appended.length ∧ (∀ x ∈ sub.yielded, x.2 ≠ i) ∧ sub.Passed i

/-- `resume k`. -/
def FeedAction.isResume (k : Nat) : FeedAction → Bool
  | .resume j => j == k
  | _ => false

namespace Subscriber

variable {maxBuffer : Nat} {s t : Feed} {sub : Subscriber}

theorem Sound.yielded_delivered (h : sub.Sound s) :
    Delivered s.appended (sub.position s) sub.yielded :=
  h.delivered.of_sublist (List.sublist_append_left _ _)

/-- A step of a subscriber loses nothing it has read. -/
theorem resume_keeps {sub' : Subscriber} (h : sub.resume s.run = some sub') :
    ∀ x ∈ sub.yielded ++ sub.pending, x ∈ sub'.yielded ++ sub'.pending := by
  intro x hx
  obtain ⟨lastEventId, phase, yielded⟩ := sub
  cases phase with
  | looping idx =>
      have hy : x ∈ yielded := by
        have hnil : x ∈ yielded ++ [] := hx
        rwa [List.append_nil] at hnil
      unfold resume at h
      dsimp only at h
      split at h <;> cases h <;> exact List.mem_append_left _ hy
  | waiting idx => cases h
  | yielding frames bufferedEnd done =>
      cases frames with
      | nil =>
          cases h
          have hy : x ∈ yielded := by
            have hnil : x ∈ yielded ++ [] := hx
            rwa [List.append_nil] at hnil
          exact List.mem_append_left _ hy
      | cons frame frames =>
          cases h
          show x ∈ (yielded ++ [frame]) ++ frames
          have hsplit : x ∈ yielded ++ (frame :: frames) := hx
          rwa [List.append_assoc]
  | returned => cases h

/-- A missed frame is below the position and was never read. -/
theorem Missed.unread (h : sub.Sound s) {i : Nat} (hm : sub.Missed s i) :
    i < sub.position s ∧ ∀ x ∈ sub.yielded ++ sub.pending, x.2 ≠ i := by
  obtain ⟨-, hlen, hnot, hpassed⟩ := hm
  rcases hpassed with hreturned | ⟨y, hy, hlt⟩
  · obtain ⟨lastEventId, phase, yielded⟩ := sub
    cases hreturned
    refine ⟨hlen, ?_⟩
    show ∀ x ∈ yielded ++ [], x.2 ≠ i
    rwa [List.append_nil]
  · refine ⟨hlt.trans (h.yielded_delivered.lt_cursor hy), ?_⟩
    intro x hx heq
    rcases List.mem_append.mp hx with hx | hx
    · exact hnot x hx heq
    · -- what is pending comes after what is yielded
      have := (List.pairwise_append.mp h.delivered.pairwise).2.2 y hy x hx
      omega

end Subscriber

namespace Feed

variable {maxBuffer : Nat} {s t : Feed} {a : FeedAction}

/-- Where a subscriber comes from: it was there, and has moved only if the buffer has not; or it
has just entered. -/
theorem step_subscriber (hs : s.Sound maxBuffer) (hstep : Step maxBuffer s a t) {k : Nat}
    {sub' : Subscriber} (hk : t.subscribers[k]? = some sub') :
    (∃ sub, s.subscribers[k]? = some sub ∧ sub.lastEventId = sub'.lastEventId ∧
      (∀ x ∈ sub.yielded ++ sub.pending, x ∈ sub'.yielded ++ sub'.pending) ∧
      (sub'.position t = sub.position s ∨ t.run = s.run)) ∨
    (s.subscribers[k]? = none ∧ t.run = s.run) := by
  cases hstep with
  | append frame hdone =>
      left
      have hmap : (s.subscribers.map Subscriber.notify)[k]? = some sub' := hk
      rw [List.getElem?_map, Option.map_eq_some_iff] at hmap
      obtain ⟨sub, hsub, rfl⟩ := hmap
      have hsound := hs.subscribers sub (List.mem_of_getElem? hsub)
      refine ⟨sub, hsub, sub.notify_lastEventId.symm, ?_, Or.inl ?_⟩
      · rw [sub.notify_yielded, sub.notify_pending]
        exact fun x hx => hx
      · refine Subscriber.position_notify ?_
        intro hreturned
        exact absurd (hsound.done_of_returned hreturned) (by simp [hdone])
  | finish hdone =>
      left
      have hmap : (s.subscribers.map Subscriber.notify)[k]? = some sub' := hk
      rw [List.getElem?_map, Option.map_eq_some_iff] at hmap
      obtain ⟨sub, hsub, rfl⟩ := hmap
      refine ⟨sub, hsub, sub.notify_lastEventId.symm, ?_, Or.inl ?_⟩
      · rw [sub.notify_yielded, sub.notify_pending]
        exact fun x hx => hx
      · exact Subscriber.position_notify fun _ => rfl
  | subscribe lastEventId =>
      have hk' : (s.subscribers ++ [Subscriber.enter s.run lastEventId])[k]? = some sub' := hk
      rcases lt_or_ge k s.subscribers.length with hlt | hge
      · rw [List.getElem?_append_left hlt] at hk'
        exact Or.inl ⟨sub', hk', rfl, fun x hx => hx, Or.inr rfl⟩
      · exact Or.inr ⟨List.getElem?_eq_none hge, rfl⟩
  | resume hget hresume =>
      rename_i j old new
      left
      have hk' : (s.subscribers.set j new)[k]? = some sub' := hk
      by_cases hjk : j = k
      · subst hjk
        rw [List.getElem?_set_self (List.getElem?_eq_some_iff.mp hget).1] at hk'
        cases hk'
        refine ⟨old, hget, Subscriber.resume_lastEventId hresume, ?_, Or.inr rfl⟩
        exact Subscriber.resume_keeps hresume
      · rw [List.getElem?_set_ne hjk] at hk'
        exact ⟨sub', hk', rfl, fun x hx => hx, Or.inr rfl⟩

theorem sound_of_run {l : List FeedAction} (hrun : Run (Step maxBuffer) {} l s) :
    s.Sound maxBuffer :=
  hrun.invariant (sound_step maxBuffer) (sound_init maxBuffer)

/-- A frame below a subscriber's position that it has not read was trimmed in some earlier
state, in which the subscriber had not got to the frame. -/
theorem unread_trimmed {l : List FeedAction} (hrun : Run (Step maxBuffer) {} l s) {k i : Nat}
    {sub : Subscriber} (hk : s.subscribers[k]? = some sub) (hgt : sub.lastEventId < i)
    (hpos : i < sub.position s) (hlen : i < s.appended.length)
    (hunread : ∀ x ∈ sub.yielded ++ sub.pending, x.2 ≠ i) :
    ∃ l₁ l₂ u, l = l₁ ++ l₂ ∧ Run (Step maxBuffer) {} l₁ u ∧ Run (Step maxBuffer) u l₂ s ∧
      i < u.run.baseSeq ∧ ∀ sub', u.subscribers[k]? = some sub' → sub'.position u ≤ i := by
  induction hrun generalizing sub with
  | refl => exact absurd hk (by simp)
  | snoc hrun hstep ih =>
      rename_i t u l a
      have ht := sound_of_run hrun
      have hu := sound_step maxBuffer t a u ht hstep
      have hsub := hu.subscribers sub (List.mem_of_getElem? hk)
      -- a frame that is still buffered would have been read
      have hnew : u.run = t.run → i < t.run.baseSeq := by
        intro hsame
        rw [← hsame]
        by_contra hbuffered
        obtain ⟨frame, hframe⟩ := hsub.complete i hgt hpos (by omega) hlen
        exact hunread _ hframe rfl
      rcases step_subscriber ht hstep hk with ⟨old, hold, hlast, hkeep, hmove⟩ | ⟨hnone, hsame⟩
      · rcases lt_or_ge i (old.position t) with hlt | hge
        · -- it was unread before this step already
          have hbound := (ht.subscribers old (List.mem_of_getElem? hold)).position_le
          obtain ⟨l₁, l₂, v, hl, h₁, h₂, hbase, hv⟩ := ih hold (by omega) hlt (by omega)
            (fun x hx => hunread x (hkeep x hx))
          exact ⟨l₁, l₂ ++ [a], v, by rw [hl, List.append_assoc], h₁, h₂.snoc hstep, hbase, hv⟩
        · have hrunsame : u.run = t.run := by
            rcases hmove with hmove | hmove
            · omega
            · exact hmove
          refine ⟨l, [a], t, rfl, hrun, Run.single hstep, hnew hrunsame, ?_⟩
          intro sub' hsub'
          rw [hold] at hsub'
          cases hsub'
          exact hge
      · refine ⟨l, [a], t, rfl, hrun, Run.single hstep, hnew hsame, ?_⟩
        intro sub' hsub'
        rw [hnone] at hsub'
        cases hsub'

end Feed

/-! ## The end of a subscriber -/

namespace Subscriber

/-- It has returned, after the last frame if that is above its `last_event_id`. -/
def Ended (s : Feed) (sub : Subscriber) : Prop :=
  sub.phase = .returned ∧ ∀ frames frame, s.appended = frames ++ [frame] →
    sub.lastEventId < frames.length → sub.yielded.getLast? = some (frame, frames.length)

variable {maxBuffer : Nat} {s : Feed} {sub : Subscriber}

/-- The buffer never drops the last frame, so a subscriber that has returned has yielded it. -/
theorem ended_of_returned (hmax : 1 ≤ maxBuffer) (hs : s.Windowed maxBuffer) (hsub : sub.Sound s)
    (h : sub.phase = .returned) : sub.Ended s := by
  refine ⟨h, ?_⟩
  intro frames frame happ hgt
  have hlen : s.appended.length = frames.length + 1 := by simp [happ]
  have hpending : sub.pending = [] := by rw [pending, h]
  have hposition : sub.position s = s.appended.length := by rw [position, h]
  have hbase := hs.baseSeq
  obtain ⟨frame', hmem⟩ := hsub.complete frames.length hgt (by omega) (by omega) (by omega)
  rw [hpending, List.append_nil] at hmem
  have hdelivered := hsub.yielded_delivered
  have hframe := hdelivered.get hmem
  have hlast : s.appended[frames.length]? = some frame := by rw [happ]; simp
  rw [hlast, Option.some_inj] at hframe
  have hx : (frame, frames.length) ∈ sub.yielded := by rw [hframe]; exact hmem
  refine hdelivered.getLast?_eq hx ?_
  intro y hy
  have := hdelivered.clamp.lt_cursor hy
  show y.2 ≤ frames.length
  omega

end Subscriber

namespace Feed

variable {maxBuffer : Nat} {s : Feed}

/-- The steps the `k`-th subscriber has left once the run is done. -/
def rank (k : Nat) (s : Feed) : Nat :=
  match s.subscribers[k]? with
  | some sub => sub.rank s.run
  | none => 0

theorem rank_eq {k : Nat} {sub : Subscriber} (hk : s.subscribers[k]? = some sub) :
    s.rank k = sub.rank s.run := by
  rw [rank, hk]

/-- A run that is done, with a given subscriber. -/
structure Closed (maxBuffer k : Nat) (lastEventId : Int) (s : Feed) : Prop where
  sound : s.Sound maxBuffer
  done : s.run.done = true
  subscriber : ∃ sub, s.subscribers[k]? = some sub ∧ sub.lastEventId = lastEventId

theorem closed_step {k : Nat} {lastEventId : Int} (s : Feed) (a : FeedAction) (t : Feed)
    (h : s.Closed maxBuffer k lastEventId) (hstep : Step maxBuffer s a t) :
    t.Closed maxBuffer k lastEventId ∧ t.rank k + (if a.isResume k then 1 else 0) ≤ s.rank k := by
  have hsound := sound_step maxBuffer s a t h.sound hstep
  have hdone := h.done
  obtain ⟨sub, hsub, hlast⟩ := h.subscriber
  cases hstep with
  | append frame hopen =>
      rw [hdone] at hopen
      cases hopen
  | finish hopen =>
      rw [hdone] at hopen
      cases hopen
  | subscribe other =>
      have hk : (s.subscribe other).subscribers[k]? = some sub := by
        show (s.subscribers ++ [Subscriber.enter s.run other])[k]? = some sub
        rw [List.getElem?_append_left (List.getElem?_eq_some_iff.mp hsub).1]
        exact hsub
      refine ⟨⟨hsound, hdone, sub, hk, hlast⟩, ?_⟩
      rw [rank_eq hk, rank_eq hsub]
      exact Nat.le_refl _
  | resume hget hresume =>
      rename_i j old new
      by_cases hjk : j = k
      · subst hjk
        rw [hsub] at hget
        cases hget
        have hk : (s.subscribers.set j new)[j]? = some new :=
          List.getElem?_set_self (List.getElem?_eq_some_iff.mp hsub).1
        have hrank := Subscriber.rank_resume hdone hresume
        have hsame := Subscriber.resume_lastEventId hresume
        refine ⟨⟨hsound, hdone, new, hk, hsame.symm.trans hlast⟩, ?_⟩
        rw [rank_eq (s := { s with subscribers := s.subscribers.set j new }) hk, rank_eq hsub]
        simp only [FeedAction.isResume, beq_self_eq_true, if_true]
        exact hrank.le
      · have hk : (s.subscribers.set j new)[k]? = some sub := by
          rw [List.getElem?_set_ne hjk]
          exact hsub
        refine ⟨⟨hsound, hdone, sub, hk, hlast⟩, ?_⟩
        rw [rank_eq (s := { s with subscribers := s.subscribers.set j new }) hk, rank_eq hsub]
        have hother : FeedAction.isResume k (.resume j) = false := by
          simpa [FeedAction.isResume] using hjk
        simp only [hother]
        exact Nat.le_refl _

/-- **Once the run is done a subscriber ends**, however the others are scheduled. -/
theorem subscriber_terminates (hmax : 1 ≤ maxBuffer) (hs : s.Sound maxBuffer)
    (hdone : s.run.done = true) {k : Nat} {sub : Subscriber} (hk : s.subscribers[k]? = some sub) :
    Terminates (Step maxBuffer) (FeedAction.isResume k)
      (fun t => ∃ sub', t.subscribers[k]? = some sub' ∧ sub'.lastEventId = sub.lastEventId ∧
        sub'.Ended t) s := by
  have hclosed : s.Closed maxBuffer k sub.lastEventId := ⟨hs, hdone, sub, hk, rfl⟩
  refine Terminates.of_rank (rank k) closed_step ?_ ?_ hclosed
  · intro t ht hzero
    obtain ⟨sub', hsub', hlast⟩ := ht.subscriber
    rw [rank_eq hsub'] at hzero
    have hsound := ht.sound.subscribers sub' (List.mem_of_getElem? hsub')
    have hreturned := Subscriber.rank_eq_zero ht.done hsound hzero
    exact ⟨sub', hsub', hlast,
      Subscriber.ended_of_returned hmax ht.sound.windowed hsound hreturned⟩
  · intro t ht
    obtain ⟨sub', hsub', hlast⟩ := ht.subscriber
    have hsound := ht.sound.subscribers sub' (List.mem_of_getElem? hsub')
    rcases Subscriber.exists_resume ht.done hsound with hreturned | ⟨next, hnext⟩
    · exact Or.inl ⟨sub', hsub', hlast,
        Subscriber.ended_of_returned hmax ht.sound.windowed hsound hreturned⟩
    · refine Or.inr ⟨.resume k, _, ?_, Step.resume hsub' hnext⟩
      simp [FeedAction.isResume]

end Feed

/-- **Replay is exact.** -/
theorem replay_exact {maxBuffer : Nat} (hmax : 1 ≤ maxBuffer) {s : Feed} {l : List FeedAction}
    (hrun : Run (Feed.Step maxBuffer) {} l s) {k : Nat} {sub : Subscriber}
    (hk : s.subscribers[k]? = some sub) :
    (sub.yielded.Pairwise fun x y => x.2 < y.2) ∧
    (∀ x ∈ sub.yielded, sub.lastEventId < x.2 ∧ s.appended[x.2]? = some x.1) ∧
    (∀ i, sub.Missed s i → ∃ l₁ l₂ u, l = l₁ ++ l₂ ∧ Run (Feed.Step maxBuffer) {} l₁ u ∧
      Run (Feed.Step maxBuffer) u l₂ s ∧ i < u.run.baseSeq ∧
      ∀ sub', u.subscribers[k]? = some sub' → sub'.position u ≤ i) ∧
    (s.appended.length ≤ maxBuffer → ∀ i, ¬ sub.Missed s i) ∧
    (s.run.done = true → Terminates (Feed.Step maxBuffer) (FeedAction.isResume k)
      (fun t => ∃ sub', t.subscribers[k]? = some sub' ∧ sub'.lastEventId = sub.lastEventId ∧
        sub'.Ended t) s) := by
  have hs := Feed.sound_of_run hrun
  have hsub := hs.subscribers sub (List.mem_of_getElem? hk)
  have hdelivered := hsub.yielded_delivered
  refine ⟨hdelivered.pairwise, ?_, ?_, ?_, fun hdone => Feed.subscriber_terminates hmax hs hdone hk⟩
  · intro x hx
    exact ⟨hsub.later x (List.mem_append_left _ hx), hdelivered.get hx⟩
  · intro i hmissed
    obtain ⟨hpos, hunread⟩ := hmissed.unread hsub
    exact Feed.unread_trimmed hrun hk hmissed.1 hpos hmissed.2.1 hunread
  · intro hsmall i hmissed
    obtain ⟨hpos, hunread⟩ := hmissed.unread hsub
    have hbase := hs.windowed.baseSeq
    obtain ⟨frame, hframe⟩ := hsub.complete i hmissed.1 hpos (by omega) hmissed.2.1
    exact hunread _ hframe rfl

/-- A buffer of one frame: two frames are appended before the subscriber reads. -/
theorem exists_late_run : ∃ l s, Run (Feed.Step 1) {} l s ∧
    s.subscribers[0]? = some ⟨-1, .yielding [] 2 false, [(⟨"b", .none⟩, 1)]⟩ ∧
    s.appended = [⟨"a", .none⟩, ⟨"b", .none⟩] := by
  have h₁ := (@Run.refl _ _ (Feed.Step 1) {}).snoc (Feed.Step.subscribe (-1))
  have h₂ := h₁.snoc (Feed.Step.append ⟨"a", .none⟩ rfl)
  have h₃ := h₂.snoc (Feed.Step.append ⟨"b", .none⟩ rfl)
  have h₄ := h₃.snoc (Feed.Step.resume (k := 0) rfl rfl)
  have h₅ := h₄.snoc (Feed.Step.resume (k := 0) rfl rfl)
  exact ⟨_, _, h₅, rfl, rfl⟩

/-- The late subscriber misses the first frame, which was trimmed. -/
theorem replay_exact_late : ∃ l s, Run (Feed.Step 1) {} l s ∧
    ∃ l₁ l₂ u, l = l₁ ++ l₂ ∧ Run (Feed.Step 1) {} l₁ u ∧ Run (Feed.Step 1) u l₂ s ∧
      0 < u.run.baseSeq := by
  obtain ⟨l, s, hrun, hsub, happ⟩ := exists_late_run
  have hmissed : Subscriber.Missed s ⟨-1, .yielding [] 2 false, [(⟨"b", .none⟩, 1)]⟩ 0 := by
    refine ⟨by decide, by rw [happ]; decide, ?_, Or.inr ⟨_, List.mem_singleton_self _, by decide⟩⟩
    intro x hx
    rw [List.mem_singleton.mp hx]
    decide
  obtain ⟨l₁, l₂, u, hl, h₁, h₂, hbase, -⟩ :=
    (replay_exact (by decide) hrun hsub).2.2.1 0 hmissed
  exact ⟨l, s, hrun, l₁, l₂, u, hl, h₁, h₂, hbase⟩

end AgentRoom
