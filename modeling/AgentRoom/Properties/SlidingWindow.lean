import AgentRoom.Lib.Window
import AgentRoom.State

set_option autoImplicit false

/-! # The capped reducer is a sliding window

`capped_append` trims at every step. Folding it over any run of increments still leaves the
last `cap` items of everything that was appended.
-/

namespace AgentRoom

variable {α : Type*}

/-- The reducer folded over a run's increments; an absent value stands for an unwritten
channel. -/
def foldCapped (cap : Nat) (start : Option (List α)) (increments : List (Option (List α))) :
    Option (List α) :=
  increments.foldl (fun left right => some (cappedAppend cap left right)) start

/-- Everything a run of increments appends. -/
def concatenated (increments : List (Option (List α))) : List α :=
  increments.flatMap (fun inc => inc.getD [])

/-- Above a positive cap the slice from the end is a window. -/
theorem cappedAppend_eq_push {cap : Nat} (hcap : 1 ≤ cap) (left right : Option (List α)) :
    cappedAppend cap left right = Window.push cap (left.getD []) (right.getD []) := by
  unfold cappedAppend Window.push
  by_cases hle : (left.getD [] ++ right.getD []).length ≤ cap
  · rw [Window.rtake_of_length_le hle]
    exact if_pos hle
  · refine (if_neg hle).trans ?_
    rw [sliceLast, if_neg (by omega), List.rtake]

theorem foldCapped_getD {cap : Nat} (hcap : 1 ≤ cap) (increments : List (Option (List α))) :
    ∀ start : Option (List α), (foldCapped cap start increments).getD [] =
      (increments.map (fun inc => inc.getD [])).foldl (Window.push cap) (start.getD []) := by
  induction increments with
  | nil => intro start; rfl
  | cons inc rest ih =>
      intro start
      rw [List.map_cons, List.foldl_cons, ← cappedAppend_eq_push hcap]
      exact ih (some (cappedAppend cap start inc))

/-- Started on a window, the fold ends on the window of the longer stream. -/
theorem foldCapped_of_window {cap : Nat} (hcap : 1 ≤ cap) {start : Option (List α)}
    {seen : List α} (hstart : start.getD [] = seen.rtake cap)
    (increments : List (Option (List α))) :
    (foldCapped cap start increments).getD [] =
      (seen ++ concatenated increments).rtake cap := by
  rw [foldCapped_getD hcap, hstart, Window.foldl_push, concatenated, List.flatMap_def]

/-- A run of updates folds their events with the reducer. -/
theorem events_foldl_apply (us : List Update) :
    ∀ s : TaskState, some (us.foldl TaskState.apply s).events =
      foldCapped eventsSoftCap (some s.events) (us.map (fun u => some u.events)) := by
  induction us with
  | nil => intro s; rfl
  | cons u rest ih => intro s; exact ih (s.apply u)

/-- **The capped reducer is a sliding window.** From an unwritten or empty channel, folding
it over any increments leaves the last `cap` items of their concatenation. So two runs that
append the same items agree however they batch them, a run may be cut and resumed from its
saved value anywhere, and a task's events depend on the order of events alone. -/
theorem foldCapped_sliding_window {cap : Nat} (hcap : 1 ≤ cap) {start : Option (List α)}
    (hstart : start = none ∨ start = some []) (increments : List (Option (List α))) :
    (foldCapped cap start increments).getD [] = (concatenated increments).rtake cap ∧
    (∀ batched, concatenated batched = concatenated increments →
      (foldCapped cap start batched).getD [] = (foldCapped cap start increments).getD []) ∧
    (∀ before after, before ++ after = increments →
      (foldCapped cap (some ((foldCapped cap start before).getD [])) after).getD [] =
        (foldCapped cap start increments).getD []) ∧
    (∀ (s : TaskState) (us vs : List Update), s.events = [] →
      us.flatMap Update.events = vs.flatMap Update.events →
      (us.foldl TaskState.apply s).events = (vs.foldl TaskState.apply s).events) := by
  have hempty : start.getD [] = ([] : List α).rtake cap := by
    rcases hstart with rfl | rfl <;> simp
  have hfold : ∀ incs : List (Option (List α)),
      (foldCapped cap start incs).getD [] = (concatenated incs).rtake cap := by
    intro incs
    rw [foldCapped_of_window hcap hempty, List.nil_append]
  refine ⟨hfold increments, ?_, ?_, ?_⟩
  · intro batched hsame
    rw [hfold, hfold, hsame]
  · rintro before after rfl
    have hsaved : (some ((foldCapped cap start before).getD [])).getD [] =
        (concatenated before).rtake cap := hfold before
    rw [foldCapped_of_window hcap hsaved, hfold, concatenated, concatenated, concatenated,
      List.flatMap_append]
  · intro s us vs hs hsame
    have hpositive : 1 ≤ eventsSoftCap := by decide
    have hstarted : (some s.events).getD [] = ([] : List Event).rtake eventsSoftCap := by
      rw [hs]; rfl
    have hevents : ∀ ws : List Update, (ws.foldl TaskState.apply s).events =
        (ws.flatMap Update.events).rtake eventsSoftCap := by
      intro ws
      have hrun := foldCapped_of_window hpositive hstarted (ws.map (fun u => some u.events))
      rw [← events_foldl_apply, List.nil_append, concatenated, List.flatMap_map] at hrun
      exact hrun
    rw [hevents, hevents, hsame]

/-- A window of two items over three increments, one of them larger than the window. -/
theorem foldCapped_sliding_window_two :
    (foldCapped 2 none [some [1], none, some [2, 3, 4], some [5]]).getD [] = [4, 5] :=
  (foldCapped_sliding_window (by decide : 1 ≤ 2) (.inl rfl) _).1

end AgentRoom
