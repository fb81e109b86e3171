import AgentRoom.Web.TaskStore
import AgentRoom.Lib.Runs

set_option autoImplicit false

/-! # The office shows who works

Seen from the office floor a run is simple: one role after the other comes to its desk and
leaves it, unless an error or a cancel cuts it off there. The store keeps who works twice, as
`activeRole` and as a flag of every desk. Both follow the floor up to the terminal event; that
event clears `activeRole` only, so a role that was cut off keeps its flag
(`applyEvents_office_iff`).
-/

namespace AgentRoom.Web

open Transition (Run)

/-- The floor: who works, and what an event changes about it. -/
inductive Floor : Option Role → AgentEvent → Option Role → Prop
  | start {e : AgentEvent} {r : Role} (hrole : e.role = some r) (hbody : e.body = .nodeStart) :
      Floor none e (some r)
  | finish {e : AgentEvent} {r : Role} {summary : Record} (hrole : e.role = some r)
      (hbody : e.body = .nodeEnd summary) : Floor (some r) e none
  | aside {e : AgentEvent} {working : Option Role} (hbody : e.body.isAside = true) :
      Floor working e working

namespace TaskStore

/-- The store shows that `working` works, and nobody else does. -/
structure ShowsFloor (s : TaskStore) (working : Option Role) : Prop where
  activeRole : s.activeRole = working
  works : ∀ r, s.Works r ↔ working = some r

/-- At most one agent works, and it is the active role. -/
def Consistent (s : TaskStore) : Prop :=
  (∀ r₁ r₂, s.Works r₁ → s.Works r₂ → r₁ = r₂) ∧ ∀ r, s.activeRole = some r ↔ s.Works r

theorem ShowsFloor.consistent {s : TaskStore} {working : Option Role} (h : s.ShowsFloor working) :
    s.Consistent := by
  constructor
  · intro r₁ r₂ h₁ h₂
    rw [h.works] at h₁ h₂
    exact Option.some.inj (h₁.symm.trans h₂)
  · intro r
    rw [h.activeRole, h.works]

theorem reset_showsFloor (instruction : String) : (reset instruction).ShowsFloor none := by
  refine ⟨rfl, fun r => ?_⟩
  simp [Works, reset]

theorem applySnapshot_showsFloor (js : Js) (s : TaskStore) (result : Record) :
    (s.applySnapshot js result).ShowsFloor none :=
  ⟨rfl, fun r => iff_of_false (not_works_applySnapshot js s result r) (by simp)⟩

variable {js : Js}

/-! ## One event -/

/-- What goes on beside the nodes moves nobody. -/
theorem applyEvent_aside (js : Js) {e : AgentEvent} (h : e.body.isAside = true) (s : TaskStore) :
    (s.applyEvent js e).activeRole = s.activeRole ∧
      ∀ r, (s.applyEvent js e).Works r ↔ s.Works r := by
  obtain ⟨role, taskId, raw, body⟩ := e
  cases role with
  | none =>
      -- without a role only the terminal events touch more than the task id
      cases body with
      | taskError error | taskFinished result => cases h
      | _ => exact ⟨rfl, fun _ => Iff.rfl⟩
  | some role =>
      cases body with
      | token text => exact ⟨rfl, works_applyToken _ role text⟩
      | toolCall tool args => exact ⟨rfl, works_applyToolCall _ role tool⟩
      | toolResult tool preview => exact ⟨rfl, works_applyToolResult _ role preview⟩
      | usage inputTokens outputTokens =>
          exact ⟨rfl, works_applyUsage _ role inputTokens outputTokens⟩
      | verificationCompleted passed exitCode round => exact ⟨rfl, fun _ => Iff.rfl⟩
      | supervisorDecided action reasoning => exact ⟨rfl, fun _ => Iff.rfl⟩
      | nodeStart | nodeEnd summary | taskError error | taskFinished result => cases h

/-- The terminal event clears `activeRole` and leaves the flags. -/
theorem applyEvent_terminal (js : Js) {e : AgentEvent} (h : e.body.isTerminal = true)
    (s : TaskStore) :
    (s.applyEvent js e).activeRole = none ∧
      ∀ r, (s.applyEvent js e).Works r ↔ s.Works r := by
  obtain ⟨role, taskId, raw, body⟩ := e
  cases body with
  | taskError error => exact ⟨rfl, fun _ => Iff.rfl⟩
  | taskFinished result => exact ⟨rfl, fun _ => Iff.rfl⟩
  | _ => cases h

theorem applyEvent_of_nodeStart {e : AgentEvent} {r : Role} (hrole : e.role = some r)
    (hbody : e.body = .nodeStart) (s : TaskStore) :
    s.applyEvent js e = ({ s with taskId := e.taskId.or s.taskId } : TaskStore).applyNodeStart r := by
  simp only [applyEvent, hrole, hbody]

theorem applyEvent_of_nodeEnd {e : AgentEvent} {r : Role} {summary : Record}
    (hrole : e.role = some r) (hbody : e.body = .nodeEnd summary) (s : TaskStore) :
    s.applyEvent js e =
      ({ s with taskId := e.taskId.or s.taskId } : TaskStore).applyNodeEnd js r summary := by
  simp only [applyEvent, hrole, hbody]

/-- **The store follows the floor.** -/
theorem ShowsFloor.applyEvent {s : TaskStore} {working next : Option Role} {e : AgentEvent}
    (h : s.ShowsFloor working) (hstep : Floor working e next) :
    (s.applyEvent js e).ShowsFloor next := by
  cases hstep with
  | start hrole hbody =>
      rw [applyEvent_of_nodeStart hrole hbody]
      refine ⟨rfl, fun other => ?_⟩
      rw [works_applyNodeStart]
      -- nobody worked before
      have hnone : ¬ s.Works other := by simp [h.works]
      constructor
      · rintro (rfl | hworks)
        · rfl
        · exact absurd hworks hnone
      · intro heq
        exact Or.inl (Option.some.inj heq).symm
  | finish hrole hbody =>
      rename_i r summary
      rw [applyEvent_of_nodeEnd hrole hbody]
      constructor
      · show (if s.activeRole = some r then none else s.activeRole) = none
        rw [if_pos h.activeRole]
      · intro other
        rw [works_applyNodeEnd]
        refine iff_of_false ?_ (by simp)
        rintro ⟨hne, hworks⟩
        exact hne (Option.some.inj ((h.works other).mp hworks)).symm
  | aside hbody =>
      obtain ⟨hactive, hworks⟩ := applyEvent_aside js hbody s
      exact ⟨hactive.trans h.activeRole, fun r => (hworks r).trans (h.works r)⟩

/-- Along a whole run. -/
theorem ShowsFloor.applyEvents {s : TaskStore} {working next : Option Role}
    {events : List AgentEvent} (h : s.ShowsFloor working) (hrun : Run Floor working events next) :
    (s.applyEvents js events).ShowsFloor next := by
  induction hrun with
  | refl => exact h
  | snoc _ hstep ih =>
      rw [applyEvents_append]
      exact ih.applyEvent hstep

/-! ## Whole runs -/

/-- Whatever is read of a run before its end, the office is consistent. -/
theorem consistent_of_prefix {s : TaskStore} (h : s.ShowsFloor none) {events pre : List AgentEvent}
    {working : Option Role} (hrun : Run Floor none events working) (hpre : pre <+: events) :
    (s.applyEvents js pre).Consistent := by
  obtain ⟨rest, rfl⟩ := hpre
  obtain ⟨between, hleft, -⟩ := hrun.split
  exact (h.applyEvents hleft).consistent

/-- **After the terminal event the office is consistent, and empty, exactly if no node was cut
off**: `cut` is the role that had started and not ended. -/
theorem applyEvents_office_iff (js : Js) {s : TaskStore} (hidle : s.ShowsFloor none)
    {events : List AgentEvent} {cut : Option Role} (hrun : Run Floor none events cut)
    {terminal : AgentEvent} (hterminal : terminal.body.isTerminal = true) :
    ((∀ pre, pre <+: events ++ [terminal] → (s.applyEvents js pre).Consistent) ∧
        ∀ r, ¬ (s.applyEvents js (events ++ [terminal])).Works r) ↔
      cut = none := by
  have hbefore : (s.applyEvents js events).ShowsFloor cut := hidle.applyEvents hrun
  obtain ⟨hactive, hworks⟩ := applyEvent_terminal js hterminal (s.applyEvents js events)
  rw [← applyEvents_singleton, ← applyEvents_append] at hactive hworks
  constructor
  · rintro ⟨-, hempty⟩
    refine Option.eq_none_iff_forall_ne_some.mpr fun r hr => hempty r ?_
    rw [hworks, hbefore.works]
    exact hr
  · rintro rfl
    have hafter : (s.applyEvents js (events ++ [terminal])).ShowsFloor none :=
      ⟨hactive, fun r => (hworks r).trans (hbefore.works r)⟩
    constructor
    · intro pre hpre
      rcases List.prefix_concat_iff.mp hpre with rfl | hpre
      · exact hafter.consistent
      · exact consistent_of_prefix hidle hrun hpre
    · intro r hr
      exact absurd ((hafter.works r).mp hr) (by simp)

/-! ## A cancel while the planner works -/

section Cancelled

/-- The language, of which nothing is asked here. -/
def idleJs : Js where
  parse _ := none
  stringify _ := ""
  string _ := ""
  number _ := none
  numeric _ := none

def plannerStarts : AgentEvent := ⟨some .planner, some "t1", .none, .nodeStart⟩

def plannerEnds : AgentEvent := ⟨some .planner, some "t1", .none, .nodeEnd []⟩

def cancelled : AgentEvent := ⟨none, some "t1", .none, .taskError "cancelled"⟩

/-- The planner is cut off and goes on working: its desk is lit after the terminal event, and
`activeRole` says that nobody works. -/
theorem cancelled_leaves_planner_active :
    Run Floor none [plannerStarts] (some .planner) ∧ cancelled.body.isTerminal = true ∧
      ((reset "").applyEvents idleJs ([plannerStarts] ++ [cancelled])).Works .planner ∧
      ((reset "").applyEvents idleJs ([plannerStarts] ++ [cancelled])).activeRole = none ∧
      ¬ ((∀ pre, pre <+: [plannerStarts] ++ [cancelled] →
            ((reset "").applyEvents idleJs pre).Consistent) ∧
          ∀ r, ¬ ((reset "").applyEvents idleJs ([plannerStarts] ++ [cancelled])).Works r) := by
  have hworks : ((reset "").applyEvents idleJs ([plannerStarts] ++ [cancelled])).Works .planner :=
    rfl
  exact ⟨.single (.start rfl rfl), rfl, hworks, rfl, fun h => h.2 .planner hworks⟩

theorem applyEvents_office_planner :
    (∀ pre, pre <+: [plannerStarts, plannerEnds] ++ [cancelled] →
        ((reset "").applyEvents idleJs pre).Consistent) ∧
      ∀ r, ¬ ((reset "").applyEvents idleJs ([plannerStarts, plannerEnds] ++ [cancelled])).Works r :=
  (applyEvents_office_iff idleJs (reset_showsFloor "")
    (.cons (.start rfl rfl) (.single (.finish rfl rfl))) rfl).mpr rfl

end Cancelled

end TaskStore

end AgentRoom.Web
