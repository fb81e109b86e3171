import AgentRoom.Server.Sessions
import Mathlib.Data.List.Nodup
import Mathlib.Data.List.Lattice

set_option autoImplicit false

/-! # Evicting finished runs

A start first drops the oldest finished runs, so that at most `keep_done` of them are left.
Runs finish in any order; what is kept are the finished runs that were started last. The order
list and the dictionary of runs always hold the same ids.
-/

namespace AgentRoom

open Transition

namespace RunManager

/-! ## The steps of a manager -/

inductive Action
  | start (taskId : String)
  | cancel (taskId : String)
  /-- A step inside a held run: its task, a subscriber or a waiting cancellation goes on. -/
  | inside (taskId : String) (a : ManagerAction)

/-- The id that a step starts a run under. -/
def Action.started? : Action → Option String
  | .start taskId => some taskId
  | .cancel _ => none
  | .inside _ _ => none

/-- One step. A run is started under an id that is not held. -/
inductive Step (keepDone maxBuffer : Nat) : RunManager → Action → RunManager → Prop
  | start {m : RunManager} {taskId tenantId : String} : m.runs taskId = none →
      Step keepDone maxBuffer m (.start taskId) (m.start keepDone taskId tenantId)
  | cancel {m m' : RunManager} {taskId : String} : m.cancel taskId = some m' →
      Step keepDone maxBuffer m (.cancel taskId) m'
  | inside {m : RunManager} {taskId : String} {run : HeldRun} {a : ManagerAction}
      {state : Manager} : m.runs taskId = some run →
      Manager.Step maxBuffer taskId run.state a state →
      Step keepDone maxBuffer m (.inside taskId a) (m.set taskId { run with state := state })

/-- The ids of started runs, in the order of their starts. -/
def startedIds (l : List Action) : List String := l.filterMap Action.started?

/-- A held run that is not finished. -/
def Unfinished (m : RunManager) (id : String) : Prop :=
  ∃ run, m.runs id = some run ∧ run.state.feed.run.done = false

/-- The order list holds the ids of the runs, each once. -/
structure Listed (m : RunManager) : Prop where
  nodup : m.order.Nodup
  mem_iff : ∀ id, id ∈ m.order ↔ (m.runs id).isSome = true

/-! ## An eviction -/

/-- What is not among the first `k` elements is after them. -/
theorem filter_notMem_take {α : Type*} [DecidableEq α] {l : List α} (h : l.Nodup) (k : Nat) :
    l.filter (fun x => x ∉ l.take k) = l.drop k := by
  have hsplit : l.take k ++ l.drop k = l := List.take_append_drop k l
  have hdisjoint : List.Disjoint (l.take k) (l.drop k) := by
    rw [← hsplit] at h
    exact List.disjoint_of_nodup_append h
  have hfront : (l.take k).filter (fun x => x ∉ l.take k) = [] := by
    rw [List.filter_eq_nil_iff]
    intro x hx
    simpa using hx
  have hback : (l.drop k).filter (fun x => x ∉ l.take k) = l.drop k := by
    rw [List.filter_eq_self]
    intro x hx
    have hno : x ∉ l.take k := fun hfirst => hdisjoint hfirst hx
    simpa using hno
  calc l.filter (fun x => x ∉ l.take k)
      = (l.take k ++ l.drop k).filter (fun x => x ∉ l.take k) := by rw [hsplit]
    _ = l.drop k := by rw [List.filter_append, hfront, hback, List.nil_append]

variable {m m' : RunManager} {id taskId tenantId : String} {run : HeldRun}
  {keepDone maxBuffer : Nat} {a : Action} {l : List Action}

/-- The finished runs that an eviction drops. -/
def victims (keepDone : Nat) (m : RunManager) : List String :=
  m.doneIds.take (m.doneIds.length - keepDone)

/-- The condition of `done_ids`. -/
def isDone (m : RunManager) (id : String) : Bool :=
  match m.runs id with
  | some run => run.state.feed.run.done
  | none => false

theorem doneIds_eq_filter : m.doneIds = m.order.filter m.isDone := rfl

theorem mem_doneIds : id ∈ m.doneIds ↔
    id ∈ m.order ∧ ∃ run, m.runs id = some run ∧ run.state.feed.run.done = true := by
  rw [doneIds_eq_filter, List.mem_filter, isDone]
  cases m.runs id <;> simp

theorem mem_victims (h : id ∈ m.victims keepDone) : id ∈ m.doneIds :=
  List.mem_of_mem_take h

theorem order_evictDone (h : m.Listed) :
    (m.evictDone keepDone).order = m.order.filter (fun id => id ∉ m.victims keepDone) := by
  rw [← h.nodup.sdiff_eq_filter, List.diff_eq_foldl]
  rfl

theorem runs_evictDone (id : String) :
    (m.evictDone keepDone).runs id = if id ∈ m.victims keepDone then none else m.runs id := rfl

theorem evictDone_listed (h : m.Listed) : (m.evictDone keepDone).Listed where
  nodup := by
    rw [order_evictDone h]
    exact h.nodup.filter _
  mem_iff := by
    intro id
    rw [order_evictDone h, runs_evictDone, List.mem_filter, h.mem_iff id]
    by_cases hv : id ∈ m.victims keepDone
    · simp [hv]
    · simp [hv]

/-- **An eviction keeps the newest finished runs.** -/
theorem doneIds_evictDone (h : m.Listed) :
    (m.evictDone keepDone).doneIds = m.doneIds.drop (m.doneIds.length - keepDone) := by
  have hnodup : m.doneIds.Nodup := h.nodup.filter _
  calc (m.evictDone keepDone).doneIds
      = (m.order.filter (fun id => id ∉ m.victims keepDone)).filter
          (m.evictDone keepDone).isDone := by rw [doneIds_eq_filter, order_evictDone h]
    _ = (m.order.filter m.isDone).filter (fun id => id ∉ m.victims keepDone) := by
        rw [List.filter_filter, List.filter_filter]
        refine List.filter_congr fun id _ => ?_
        by_cases hv : id ∈ m.victims keepDone
        · simp [hv]
        · simp [hv, isDone, runs_evictDone]
    _ = m.doneIds.drop (m.doneIds.length - keepDone) := filter_notMem_take hnodup _

theorem runs_evictDone_of_unfinished (h : m.Unfinished id) :
    (m.evictDone keepDone).runs id = m.runs id := by
  obtain ⟨run, hrun, hdone⟩ := h
  rw [runs_evictDone]
  split
  · rename_i hv
    -- a victim is finished
    obtain ⟨-, run', hrun', hdone'⟩ := mem_doneIds.mp (mem_victims hv)
    rw [hrun] at hrun'
    cases hrun'
    rw [hdone] at hdone'
    cases hdone'
  · rfl

/-! ## A start -/

theorem runs_start (id : String) :
    (m.start keepDone taskId tenantId).runs id =
      if id = taskId then some { tenantId := tenantId } else (m.evictDone keepDone).runs id := rfl

theorem order_start :
    (m.start keepDone taskId tenantId).order = (m.evictDone keepDone).order ++ [taskId] := rfl

/-- What is not held before a start is not in its order list after the eviction. -/
theorem notMem_order_evictDone (h : m.Listed) (hnew : m.runs taskId = none) :
    taskId ∉ (m.evictDone keepDone).order := by
  rw [(evictDone_listed h).mem_iff, runs_evictDone, hnew]
  simp

theorem start_listed (h : m.Listed) (hnew : m.runs taskId = none) :
    (m.start keepDone taskId tenantId).Listed where
  nodup := by
    rw [order_start, List.nodup_append]
    refine ⟨(evictDone_listed h).nodup, List.nodup_singleton _, ?_⟩
    rintro id hid _ hsame rfl
    rw [List.mem_singleton.mp hsame] at hid
    exact notMem_order_evictDone h hnew hid
  mem_iff := by
    intro id
    rw [order_start, runs_start, List.mem_append, (evictDone_listed h).mem_iff]
    by_cases hid : id = taskId
    · simp [hid]
    · simp [hid]

/-- The new run is not finished, so a start holds the finished runs its eviction left. -/
theorem doneIds_start (h : m.Listed) (hnew : m.runs taskId = none) :
    (m.start keepDone taskId tenantId).doneIds =
      m.doneIds.drop (m.doneIds.length - keepDone) := by
  have hfresh : [taskId].filter (m.start keepDone taskId tenantId).isDone = [] := by
    simp [isDone, runs_start]
  rw [← doneIds_evictDone h, doneIds_eq_filter, order_start, List.filter_append, hfresh,
    List.append_nil, doneIds_eq_filter]
  refine List.filter_congr fun id hid => ?_
  have hne : id ≠ taskId := by
    rintro rfl
    exact notMem_order_evictDone h hnew hid
  rw [isDone, isDone, runs_start, if_neg hne]

theorem order_evictDone_sublist (h : m.Listed) :
    ((m.evictDone keepDone).order).Sublist m.order := by
  rw [order_evictDone h]
  exact List.filter_sublist

/-! ## The other steps -/

/-- Replacing a held run keeps the ids. -/
theorem set_listed (h : m.Listed) (hrun : m.runs taskId = some run) (run' : HeldRun) :
    (m.set taskId run').Listed where
  nodup := h.nodup
  mem_iff := by
    intro id
    rw [runs_set]
    by_cases hid : id = taskId
    · rw [if_pos hid, hid]
      exact (h.mem_iff taskId).trans (by simp [hrun])
    · rw [if_neg hid]
      exact h.mem_iff id

/-- A cancellation replaces the run it cancels. -/
theorem exists_set_of_cancel (h : m.cancel taskId = some m') :
    ∃ run run', m.runs taskId = some run ∧ m' = m.set taskId run' := by
  unfold cancel at h
  split at h
  · cases h
  · rename_i run hrun
    split at h
    · cases h
    · cases h
      exact ⟨run, _, hrun, rfl⟩

/-- A step starts a run, or replaces one that is held. -/
theorem Step.start_or_set (h : Step keepDone maxBuffer m a m') :
    (∃ taskId tenantId, a = .start taskId ∧ m.runs taskId = none ∧
      m' = m.start keepDone taskId tenantId) ∨
    (a.started? = none ∧ ∃ taskId run run', m.runs taskId = some run ∧ m' = m.set taskId run') := by
  cases h with
  | start hnew => exact Or.inl ⟨_, _, rfl, hnew, rfl⟩
  | cancel hcancel =>
      obtain ⟨run, run', hrun, hm'⟩ := exists_set_of_cancel hcancel
      exact Or.inr ⟨rfl, _, run, run', hrun, hm'⟩
  | inside hrun _ => exact Or.inr ⟨rfl, _, _, _, hrun, rfl⟩

/-! ## The runs of a manager -/

/-- What holds of a manager after some steps. -/
structure Orderly (l : List Action) (m : RunManager) : Prop where
  listed : m.Listed
  inOrder : m.order.Sublist (startedIds l)

theorem orderly_start : Orderly [] {} where
  listed :=
    { nodup := List.nodup_nil
      mem_iff := by
        intro id
        simp }
  inOrder := List.Sublist.refl _

theorem Orderly.step (h : Orderly l m) (hstep : Step keepDone maxBuffer m a m') :
    Orderly (l ++ [a]) m' := by
  have hlog : startedIds (l ++ [a]) = startedIds l ++ startedIds [a] := by
    rw [startedIds, List.filterMap_append]
    rfl
  rcases hstep.start_or_set with ⟨taskId, tenantId, rfl, hnew, rfl⟩ |
    ⟨hquiet, taskId, run, run', hrun, rfl⟩
  · refine ⟨start_listed h.listed hnew, ?_⟩
    rw [hlog, order_start]
    exact ((order_evictDone_sublist h.listed).trans h.inOrder).append (List.Sublist.refl _)
  · refine ⟨set_listed h.listed hrun run', ?_⟩
    have hnone : startedIds [a] = [] := by simp [startedIds, hquiet]
    rw [hlog, hnone, List.append_nil]
    exact h.inOrder

theorem orderly_of_run (h : Run (Step keepDone maxBuffer) {} l m) : Orderly l m :=
  h.log_invariant (P := Orderly) (fun _ _ _ _ hP hstep => hP.step hstep) orderly_start

/-- A step keeps every unfinished run. -/
theorem Step.keeps_unfinished (hstep : Step keepDone maxBuffer m a m') (h : m.Unfinished id) :
    (m'.runs id).isSome = true := by
  have hheld : (m.runs id).isSome = true := by
    obtain ⟨run, hrun, -⟩ := h
    rw [hrun]
    rfl
  rcases hstep.start_or_set with ⟨taskId, tenantId, -, -, rfl⟩ | ⟨-, taskId, run, run', -, rfl⟩
  · rw [runs_start]
    split
    · rfl
    · rw [runs_evictDone_of_unfinished h]
      exact hheld
  · rw [runs_set]
    split
    · rfl
    · exact hheld

end RunManager

open RunManager

/-- **Eviction drops the oldest finished runs only.** After any steps of a manager the order
list holds the ids of the runs, each once and in the order of their starts. No step drops an
unfinished run. A start leaves the unfinished runs as they are, and of the finished ones the
last `keep_done` in that order. -/
theorem eviction_drops_oldest_finished {keepDone maxBuffer : Nat} {l : List RunManager.Action}
    {m : RunManager} (hrun : Run (RunManager.Step keepDone maxBuffer) {} l m) :
    m.order.Nodup ∧ (∀ id, id ∈ m.order ↔ (m.runs id).isSome = true) ∧
    m.order.Sublist (startedIds l) ∧
    (∀ a m', RunManager.Step keepDone maxBuffer m a m' → ∀ id, m.Unfinished id →
      (m'.runs id).isSome = true) ∧
    ∀ taskId tenantId, m.runs taskId = none →
      (∀ id, m.Unfinished id → (m.start keepDone taskId tenantId).runs id = m.runs id) ∧
      (m.start keepDone taskId tenantId).doneIds =
        m.doneIds.drop (m.doneIds.length - keepDone) ∧
      (m.start keepDone taskId tenantId).doneIds.length ≤ keepDone := by
  have horderly := orderly_of_run hrun
  have hlisted := horderly.listed
  refine ⟨hlisted.nodup, hlisted.mem_iff, horderly.inOrder, ?_, ?_⟩
  · intro a m' hstep id hid
    exact hstep.keeps_unfinished hid
  · intro taskId tenantId hnew
    refine ⟨?_, doneIds_start hlisted hnew, ?_⟩
    · intro id hid
      have hne : id ≠ taskId := by
        rintro rfl
        obtain ⟨run, hrun, -⟩ := hid
        rw [hnew] at hrun
        cases hrun
      rw [runs_start, if_neg hne, runs_evictDone_of_unfinished hid]
    · rw [doneIds_start hlisted hnew, List.length_drop]
      omega

/-! ## Two runs -/

/-- A run that ends at once. -/
def endedAtOnce : Segment := ⟨[], some .ended⟩

/-- The first of two runs is finished and the second is not. -/
theorem finished_run_evicted :
    ∃ m, Run (RunManager.Step 0 defaultMaxBuffer) {}
        [.start "a", .inside "a" (.drive endedAtOnce), .start "b"] m ∧
      m.order = ["b"] ∧ (m.start 0 "c" "t").doneIds.length ≤ 0 := by
  let m₁ : RunManager := ({} : RunManager).start 0 "a" "t"
  let m₂ := m₁.set "a"
    { tenantId := "t", state := ({} : Manager).runSegment defaultMaxBuffer "a" endedAtOnce }
  have h₁ : RunManager.Step 0 defaultMaxBuffer {} (.start "a") m₁ := .start rfl
  have hheld : m₁.runs "a" = some { tenantId := "t" } := rfl
  have h₂ : RunManager.Step 0 defaultMaxBuffer m₁ (.inside "a" (.drive endedAtOnce)) m₂ :=
    .inside hheld (.first endedAtOnce rfl)
  have h₃ : RunManager.Step 0 defaultMaxBuffer m₂ (.start "b") (m₂.start 0 "b" "t") := .start rfl
  have hrun := ((Run.single h₁).snoc h₂).snoc h₃
  refine ⟨m₂.start 0 "b" "t", hrun, by decide, ?_⟩
  exact ((eviction_drops_oldest_finished hrun).2.2.2.2 "c" "t" (by decide)).2.2

end AgentRoom
