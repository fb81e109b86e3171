import AgentRoom.Server.TenantPool

set_option autoImplicit false

/-! # A tenant's store is opened once

Whoever holds the lock is the only call that opens a store or adds an entry, and it looks for
the entry again first. So no tenant gets a second store, every call that returns for a tenant
returns the same entry, and a failed open leaves the next call where the failed one began.
-/

namespace AgentRoom

open Transition

/-- In the locked block. -/
def GetPhase.inside : GetPhase → Bool
  | .holding | .opening _ => true
  | _ => false

namespace TenantPool

variable {p p' : TenantPool} {i j n : Nat} {t t' : String} {phase : GetPhase} {e : TenantEntry}
  {l l' : List Action} {a : Action}

/-- A call is in the locked block. -/
def Inside (p : TenantPool) (i : Nat) : Prop :=
  ∃ t phase, p.calls i = some (t, phase) ∧ phase.inside = true

/-- The store of a tenant was opened. -/
def Action.isOpened (t : String) : Action → Bool
  | .opened _ t' => t' == t
  | _ => false

theorem calls_goto_self : (p.goto i t phase).calls i = some (t, phase) :=
  Function.update_self ..

theorem calls_goto_ne (h : j ≠ i) : (p.goto i t phase).calls j = p.calls j :=
  Function.update_of_ne h _ _

/-- What holds of a pool after some steps. -/
structure Safe (l : List Action) (p : TenantPool) : Prop where
  /-- Only the call that has the lock is in the locked block. -/
  lock : ∀ i, p.lock = some i ↔ p.Inside i
  opening : ∀ i t n, p.calls i = some (t, .opening n) →
    p.entries t = none ∧ n < p.opens ∧ ∀ t' e, p.entries t' = some e → e.opened ≠ n
  entry_lt : ∀ t e, p.entries t = some e → e.opened < p.opens
  entry_inj : ∀ t t' e, p.entries t = some e → p.entries t' = some e → t = t'
  returned : ∀ i t e, p.calls i = some (t, .returned e) → p.entries t = some e
  raised : ∀ i t, p.calls i = some (t, .raised) ↔ .openFails i t ∈ l
  count : ∀ t, l.countP (Action.isOpened t) = if (p.entries t).isSome then 1 else 0

theorem safe_start : Safe [] {} where
  lock := by
    intro i
    simp [Inside]
  opening := by simp
  entry_lt := by simp
  entry_inj := by simp
  returned := by simp
  raised := by simp
  count := by simp

/-- A call that moves on leaves the others inside or outside. -/
theorem inside_goto_ne (h : j ≠ i) : (p.goto i t phase).Inside j ↔ p.Inside j := by
  unfold Inside
  rw [calls_goto_ne h]

theorem inside_goto_self : (p.goto i t phase).Inside i ↔ phase.inside = true := by
  unfold Inside
  rw [calls_goto_self]
  constructor
  · rintro ⟨t', phase', heq, hin⟩
    cases heq
    exact hin
  · intro hin
    exact ⟨t, phase, rfl, hin⟩

theorem inside_iff (h : p.calls i = some (t, phase)) : p.Inside i ↔ phase.inside = true := by
  unfold Inside
  rw [h]
  constructor
  · rintro ⟨t', phase', heq, hin⟩
    cases heq
    exact hin
  · intro hin
    exact ⟨t, phase, rfl, hin⟩

/-- Two calls in the locked block are the same. -/
theorem Safe.inside_unique (h : Safe l p) (hi : p.Inside i) (hj : p.Inside j) : i = j := by
  have hlock := (h.lock i).mpr hi
  rw [(h.lock j).mpr hj] at hlock
  exact (Option.some.inj hlock).symm

/-- After one call went on, a call is that one or where it was before. -/
theorem calls_of_goto {x : GetPhase} (h : (p.goto i t phase).calls j = some (t', x)) :
    (j = i ∧ t' = t ∧ x = phase) ∨ (j ≠ i ∧ p.calls j = some (t', x)) := by
  by_cases hji : j = i
  · subst hji
    rw [calls_goto_self] at h
    cases h
    exact Or.inl ⟨rfl, rfl, rfl⟩
  · rw [calls_goto_ne hji] at h
    exact Or.inr ⟨hji, h⟩

/-- A call that has not raised goes on: the raised calls stay those of the log. -/
theorem Safe.raised_goto (h : Safe l p) (hfresh : ∀ t', p.calls i ≠ some (t', .raised))
    (hphase : phase ≠ .raised) (hfails : ∀ j t, a ≠ .openFails j t) (t' : String) :
    (p.goto i t phase).calls j = some (t', .raised) ↔ .openFails j t' ∈ l ++ [a] := by
  have hlog : Action.openFails j t' ∈ l ++ [a] ↔ Action.openFails j t' ∈ l := by
    simp [Ne.symm (hfails j t')]
  rw [hlog, ← h.raised j t']
  constructor
  · intro hj
    rcases calls_of_goto hj with ⟨-, -, hx⟩ | ⟨-, hj⟩
    · exact absurd hx.symm hphase
    · exact hj
  · intro hj
    have hji : j ≠ i := by
      rintro rfl
      exact hfresh t' hj
    rw [calls_goto_ne hji]
    exact hj

/-- A call that does not open a store leaves the open ones as they are. -/
theorem Safe.opening_goto (h : Safe l p) (hphase : ∀ n, phase ≠ .opening n)
    (hj : (p.goto i t phase).calls j = some (t', .opening n)) :
    p.entries t' = none ∧ n < p.opens ∧ ∀ t'' e, p.entries t'' = some e → e.opened ≠ n := by
  rcases calls_of_goto hj with ⟨-, -, hx⟩ | ⟨-, hold⟩
  · exact absurd hx.symm (hphase n)
  · exact h.opening j t' n hold

/-- What a call returns is the entry of its tenant, also after a call went on. -/
theorem Safe.returned_goto (h : Safe l p)
    (hphase : ∀ e, phase = .returned e → p.entries t = some e)
    (hj : (p.goto i t phase).calls j = some (t', .returned e)) : p.entries t' = some e := by
  rcases calls_of_goto hj with ⟨-, rfl, hx⟩ | ⟨-, hold⟩
  · exact hphase e hx.symm
  · exact h.returned j t' e hold

/-- A step that opens nothing: a call goes on, and the lock follows it. -/
theorem Safe.goto (h : Safe l p) {lock : Option Nat}
    (hfresh : ∀ t', p.calls i ≠ some (t', .raised))
    (hlock : ∀ j, lock = some j ↔ (p.goto i t phase).Inside j)
    (hopening : ∀ n, phase ≠ .opening n) (hraised : phase ≠ .raised)
    (hreturned : ∀ e, phase = .returned e → p.entries t = some e)
    (hopened : ∀ t, a.isOpened t = false) (hfails : ∀ j t, a ≠ .openFails j t) :
    Safe (l ++ [a]) { p.goto i t phase with lock := lock } where
  lock := hlock
  opening := fun _ _ _ hj => h.opening_goto hopening hj
  entry_lt := h.entry_lt
  entry_inj := h.entry_inj
  returned := fun _ _ _ hj => h.returned_goto hreturned hj
  raised := fun j t' => h.raised_goto hfresh hraised hfails t'
  count := by
    intro t'
    rw [List.countP_append, List.countP_singleton, hopened t']
    exact h.count t'

/-- The lock of a step that stays on the same side of it. -/
theorem Safe.lock_goto (h : Safe l p) (hsame : phase.inside = true ↔ p.Inside i) (j : Nat) :
    p.lock = some j ↔ (p.goto i t phase).Inside j := by
  rw [h.lock j]
  by_cases hji : j = i
  · subst hji
    rw [inside_goto_self, hsame]
  · rw [inside_goto_ne hji]

/-- The lock of a step that leaves the locked block. -/
theorem Safe.release_goto (h : Safe l p) (hin : p.Inside i) (hout : phase.inside = false)
    (j : Nat) : none = some j ↔ (p.goto i t phase).Inside j := by
  refine iff_of_false (fun hnone => by cases hnone) ?_
  intro hj
  by_cases hji : j = i
  · subst hji
    rw [inside_goto_self, hout] at hj
    cases hj
  · rw [inside_goto_ne hji] at hj
    exact hji (h.inside_unique hj hin)

/-- Whoever opens a store is inside. -/
theorem inside_of_opening (hi : p.calls i = some (t, .opening n)) : p.Inside i :=
  (inside_iff hi).mpr rfl

theorem Safe.openCheckpointer (h : Safe l p) (hi : p.calls i = some (t, .holding))
    (hnone : p.entries t = none) :
    Safe (l ++ [.openCheckpointer i t])
      { p.goto i t (.opening p.opens) with opens := p.opens + 1 } where
  lock := h.lock_goto (by rw [inside_iff hi]; rfl)
  opening := by
    intro j t' n hj
    have hj' : (p.goto i t (.opening p.opens)).calls j = some (t', .opening n) := hj
    rcases calls_of_goto hj' with ⟨-, rfl, hx⟩ | ⟨hne, hold⟩
    · cases hx
      refine ⟨hnone, Nat.lt_succ_self _, ?_⟩
      intro t'' e he
      exact Nat.ne_of_lt (h.entry_lt t'' e he)
    · exact absurd (h.inside_unique (inside_of_opening hold) ((inside_iff hi).mpr rfl)) hne
  entry_lt := by
    intro t' e he
    have := h.entry_lt t' e he
    show e.opened < p.opens + 1
    omega
  entry_inj := h.entry_inj
  returned := fun _ _ _ hj => h.returned_goto (by simp) hj
  raised := by
    intro j t'
    refine h.raised_goto ?_ (by simp) (by simp) t'
    intro t''
    rw [hi]
    simp
  count := by
    intro t'
    rw [List.countP_append, List.countP_singleton]
    exact h.count t'

/-- An entry after an open is the new one or an old one. -/
theorem entries_of_update {e₀ : TenantEntry}
    (he : Function.update p.entries t (some e₀) t' = some e) :
    (t' = t ∧ e = e₀) ∨ (t' ≠ t ∧ p.entries t' = some e) := by
  by_cases ht : t' = t
  · subst ht
    rw [Function.update_self] at he
    exact Or.inl ⟨rfl, (Option.some.inj he).symm⟩
  · rw [Function.update_of_ne ht] at he
    exact Or.inr ⟨ht, he⟩

/-- The entry of a store that no entry has yet is not shared. -/
theorem Safe.entry_inj_update (h : Safe l p)
    (hnew : ∀ t' e, p.entries t' = some e → e.opened ≠ n) {t₁ t₂ : String}
    (h₁ : Function.update p.entries t (some ⟨n⟩) t₁ = some e)
    (h₂ : Function.update p.entries t (some ⟨n⟩) t₂ = some e) : t₁ = t₂ := by
  rcases entries_of_update h₁ with ⟨rfl, rfl⟩ | ⟨-, hold₁⟩
  · rcases entries_of_update h₂ with ⟨rfl, -⟩ | ⟨-, hold₂⟩
    · rfl
    · exact absurd rfl (hnew t₂ _ hold₂)
  · rcases entries_of_update h₂ with ⟨rfl, rfl⟩ | ⟨-, hold₂⟩
    · exact absurd rfl (hnew t₁ _ hold₁)
    · exact h.entry_inj t₁ t₂ e hold₁ hold₂

theorem Safe.opened (h : Safe l p) (hi : p.calls i = some (t, .opening n)) :
    Safe (l ++ [.opened i t])
      { p.goto i t (.returned ⟨n⟩) with
        entries := Function.update p.entries t (some ⟨n⟩)
        lock := none } := by
  obtain ⟨hnone, hlt, hnew⟩ := h.opening i t n hi
  constructor
  · exact h.release_goto (inside_of_opening hi) rfl
  · -- no other call is opening a store: it would be in the locked block as well
    intro j t' n' hj
    have hj' : (p.goto i t (.returned ⟨n⟩)).calls j = some (t', .opening n') := hj
    rcases calls_of_goto hj' with ⟨-, -, hx⟩ | ⟨hne, hold⟩
    · cases hx
    · exact absurd (h.inside_unique (inside_of_opening hold) (inside_of_opening hi)) hne
  · intro t' e he
    rcases entries_of_update he with ⟨-, rfl⟩ | ⟨-, hold⟩
    · exact hlt
    · exact h.entry_lt t' e hold
  · exact fun _ _ _ h₁ h₂ => h.entry_inj_update hnew h₁ h₂
  · intro j t' e hj
    have hj' : (p.goto i t (.returned ⟨n⟩)).calls j = some (t', .returned e) := hj
    show Function.update p.entries t (some ⟨n⟩) t' = some e
    rcases calls_of_goto hj' with ⟨-, rfl, hx⟩ | ⟨-, hold⟩
    · cases hx
      rw [Function.update_self]
    · -- nothing was returned for a tenant without an entry
      have hentry := h.returned j t' e hold
      have ht : t' ≠ t := by
        rintro rfl
        rw [hnone] at hentry
        cases hentry
      rw [Function.update_of_ne ht]
      exact hentry
  · intro j t'
    refine h.raised_goto ?_ (by simp) (by simp) t'
    intro t''
    rw [hi]
    simp
  · intro t'
    rw [List.countP_append, List.countP_singleton, h.count t']
    by_cases ht : t' = t
    · subst ht
      simp [hnone, Action.isOpened]
    · simp [Action.isOpened, Ne.symm ht, Function.update_of_ne ht]

theorem Safe.openFails (h : Safe l p) (hi : p.calls i = some (t, .opening n)) :
    Safe (l ++ [.openFails i t]) { p.goto i t .raised with lock := none } where
  lock := h.release_goto (inside_of_opening hi) rfl
  opening := fun _ _ _ hj => h.opening_goto (by simp) hj
  entry_lt := h.entry_lt
  entry_inj := h.entry_inj
  returned := fun _ _ _ hj => h.returned_goto (by simp) hj
  raised := by
    intro j t'
    show (p.goto i t .raised).calls j = some (t', .raised) ↔ _
    rw [List.mem_append, List.mem_singleton, ← h.raised j t']
    constructor
    · intro hj
      rcases calls_of_goto hj with ⟨rfl, rfl, -⟩ | ⟨-, hold⟩
      · exact Or.inr rfl
      · exact Or.inl hold
    · rintro (hold | heq)
      · have hji : j ≠ i := by
          rintro rfl
          rw [hi] at hold
          cases hold
        rw [calls_goto_ne hji]
        exact hold
      · cases heq
        exact calls_goto_self
  count := by
    intro t'
    rw [List.countP_append, List.countP_singleton]
    exact h.count t'

/-- **The step lemma.** -/
theorem Safe.step (h : Safe l p) (hstep : Step p a p') : Safe (l ++ [a]) p' := by
  cases hstep with
  | call t hi =>
      refine h.goto (by simp [hi]) (h.lock_goto ?_) (by simp) (by simp) (by simp)
        (fun _ => rfl) (by simp)
      refine iff_of_false (by simp [GetPhase.inside]) ?_
      rintro ⟨t', phase, heq, -⟩
      rw [hi] at heq
      cases heq
  | cached hi he =>
      refine h.goto (by simp [hi]) (h.lock_goto ?_) (by simp) (by simp) ?_ (fun _ => rfl) (by simp)
      · rw [inside_iff hi]
        rfl
      · intro e heq
        cases heq
        exact he
  | queue hi hnone =>
      refine h.goto (by simp [hi]) (h.lock_goto ?_) (by simp) (by simp) (by simp)
        (fun _ => rfl) (by simp)
      rw [inside_iff hi]
      rfl
  | @acquire i t hi hfree =>
      refine h.goto (by simp [hi]) ?_ (by simp) (by simp) (by simp) (fun _ => rfl) (by simp)
      intro j
      by_cases hji : j = i
      · subst hji
        exact iff_of_true rfl (inside_goto_self.mpr rfl)
      · rw [inside_goto_ne hji, ← h.lock j, hfree]
        simp [Ne.symm hji]
  | recheck hi he =>
      refine h.goto (by simp [hi]) (h.release_goto ((inside_iff hi).mpr rfl) rfl) (by simp)
        (by simp) ?_ (fun _ => rfl) (by simp)
      intro e heq
      cases heq
      exact he
  | openCheckpointer hi hnone => exact h.openCheckpointer hi hnone
  | opened hi => exact h.opened hi
  | openFails hi => exact h.openFails hi

theorem safe_of_run (h : Run Step {} l p) : Safe l p :=
  h.log_invariant (P := Safe) (fun _ _ _ _ hP hstep => hP.step hstep) safe_start

/-! ## After a failed open -/

/-- What has happened for a tenant since nothing was open or opening for it: an opening call
started to open, an entry was opened, and so did every call of `fresh` that raised. -/
structure Retried (t : String) (fresh : Nat → Prop) (l : List Action) (p : TenantPool) : Prop where
  opening : ∀ j n, p.calls j = some (t, .opening n) → .openCheckpointer j t ∈ l
  entry : ∀ e, p.entries t = some e → ∃ j, .openCheckpointer j t ∈ l ∧ .opened j t ∈ l
  raised : ∀ j, fresh j → p.calls j = some (t, .raised) → .openCheckpointer j t ∈ l

/-- One call goes on to a phase. It starts to open, or raises, only by an open of its own, and a
new entry was opened. -/
theorem Retried.goto {fresh : Nat → Prop} (h : Retried t fresh l p) {q : TenantPool} {i : Nat}
    {t₁ : String} {phase : GetPhase} {a : Action} (hcalls : q.calls = (p.goto i t₁ phase).calls)
    (hopens : (∃ n, phase = .opening n) ∨ phase = .raised → t₁ = t →
      .openCheckpointer i t ∈ l ++ [a])
    (hentry : ∀ e, q.entries t = some e → p.entries t = some e ∨
      ∃ j, .openCheckpointer j t ∈ l ++ [a] ∧ .opened j t ∈ l ++ [a]) :
    Retried t fresh (l ++ [a]) q where
  opening := by
    intro j n hj
    rw [hcalls] at hj
    rcases calls_of_goto hj with ⟨rfl, ht, hx⟩ | ⟨-, hold⟩
    · exact hopens (.inl ⟨n, hx.symm⟩) ht.symm
    · exact List.mem_append_left _ (h.opening j n hold)
  entry := by
    intro e he
    rcases hentry e he with hold | hnew
    · obtain ⟨j, hopen, hopened⟩ := h.entry e hold
      exact ⟨j, List.mem_append_left _ hopen, List.mem_append_left _ hopened⟩
    · exact hnew
  raised := by
    intro j hfresh hj
    rw [hcalls] at hj
    rcases calls_of_goto hj with ⟨rfl, ht, hx⟩ | ⟨-, hold⟩
    · exact hopens (.inr hx.symm) ht.symm
    · exact List.mem_append_left _ (h.raised j hfresh hold)

/-- A step to a phase in which a call neither opens nor has raised. -/
theorem Retried.quiet {fresh : Nat → Prop} (h : Retried t fresh l p) {i : Nat} {t₁ : String}
    {phase : GetPhase} {lock : Option Nat} {a : Action} (hopening : ∀ n, phase ≠ .opening n)
    (hraised : phase ≠ .raised) :
    Retried t fresh (l ++ [a]) { p.goto i t₁ phase with lock := lock } := by
  refine h.goto rfl ?_ fun e he => .inl he
  rintro (⟨n, hphase⟩ | hphase) -
  · exact absurd hphase (hopening n)
  · exact absurd hphase hraised

theorem Retried.step {fresh : Nat → Prop} (h : Retried t fresh l p) (hstep : Step p a p') :
    Retried t fresh (l ++ [a]) p' := by
  cases hstep with
  | call t₁ hi => exact h.quiet (by simp) (by simp)
  | cached hi he => exact h.quiet (by simp) (by simp)
  | queue hi hnone => exact h.quiet (by simp) (by simp)
  | acquire hi hfree => exact h.quiet (by simp) (by simp)
  | recheck hi he => exact h.quiet (by simp) (by simp)
  | openCheckpointer hi hnone =>
      refine h.goto rfl ?_ fun e he => .inl he
      rintro - rfl
      exact List.mem_append_right _ List.mem_cons_self
  | @opened i n t₁ hi =>
      refine h.goto rfl ?_ fun e he => ?_
      · rintro (⟨m, hphase⟩ | hphase) -
        · cases hphase
        · cases hphase
      · by_cases ht : t = t₁
        · subst ht
          exact .inr ⟨i, List.mem_append_left _ (h.opening i n hi),
            List.mem_append_right _ List.mem_cons_self⟩
        · rw [← he]
          exact .inl (Function.update_of_ne ht _ _).symm
  | @openFails i n t₁ hi =>
      refine h.goto rfl ?_ fun e he => .inl he
      rintro - rfl
      exact List.mem_append_left _ (h.opening i n hi)

/-- A failed open leaves the lock free and its tenant without an entry. -/
theorem Step.after_openFails (hsafe : Safe l p) (hstep : Step p (.openFails i t) p') :
    p'.entries = p.entries ∧ (∀ j, j ≠ i → p'.calls j = p.calls j) ∧ p'.lock = none ∧
      p'.entries t = none := by
  cases hstep with
  | openFails hi =>
      refine ⟨rfl, fun j hj => calls_goto_ne hj, rfl, ?_⟩
      exact (hsafe.opening i t _ hi).1

theorem retried_start {fresh : Nat → Prop} (hsafe : Safe l p) (hlock : p.lock = none)
    (hnone : p.entries t = none) (hfresh : ∀ j, fresh j → p.calls j = none) :
    Retried t fresh [] p where
  opening := by
    intro j n hj
    have hheld := (hsafe.lock j).mpr (inside_of_opening hj)
    rw [hlock] at hheld
    cases hheld
  entry := by
    intro e he
    rw [hnone] at he
    cases he
  raised := by
    intro j hj hraised
    rw [hfresh j hj] at hraised
    cases hraised

/-- A call for a tenant without an entry opens its store, when the lock is free. -/
theorem run_to_open (hlock : p.lock = none) (hnone : p.entries t = none) (hi : p.calls i = none) :
    ∃ p', Run Step p [.call i t, .queue i, .acquire i, .openCheckpointer i t] p' := by
  have hcall : Step p (.call i t) (p.goto i t .entered) := .call t hi
  have hqueue : Step (p.goto i t .entered) (.queue i) ((p.goto i t .entered).goto i t .waiting) :=
    .queue calls_goto_self hnone
  have hacquire := Step.acquire (p := (p.goto i t .entered).goto i t .waiting) (i := i)
    calls_goto_self hlock
  have hopen := Step.openCheckpointer (i := i)
    (p := { ((p.goto i t .entered).goto i t .waiting).goto i t .holding with lock := some i })
    calls_goto_self hnone
  exact ⟨_, (((Run.single hcall).snoc hqueue).snoc hacquire).snoc hopen⟩

end TenantPool

open TenantPool

/-- **A tenant's store is opened once.** In every run of a pool: at most one open succeeds for a
tenant, its calls return the same entry and the calls of other tenants other ones, and the calls
that raise are those whose open failed. After a failed open the entries and the other calls are
as before, and a later call for the tenant opens again: it can at once, it raises only after its
own open, and it returns only what was opened since. -/
theorem tenant_store_opened_once {l : List TenantPool.Action} {p : TenantPool}
    (hrun : Run TenantPool.Step {} l p) :
    (∀ t, l.countP (Action.isOpened t) ≤ 1) ∧
    (∀ i j t e e', p.calls i = some (t, .returned e) → p.calls j = some (t, .returned e') →
      e = e') ∧
    (∀ i j t t' e e', p.calls i = some (t, .returned e) → p.calls j = some (t', .returned e') →
      t ≠ t' → e ≠ e') ∧
    (∀ i t, p.calls i = some (t, .raised) ↔ .openFails i t ∈ l) ∧
    ∀ i t p₁, TenantPool.Step p (.openFails i t) p₁ →
      p₁.entries = p.entries ∧ (∀ j, j ≠ i → p₁.calls j = p.calls j) ∧
      ∀ k, p₁.calls k = none →
        (∃ p', Run TenantPool.Step p₁
          [.call k t, .queue k, .acquire k, .openCheckpointer k t] p') ∧
        ∀ l' p', Run TenantPool.Step p₁ l' p' →
          (p'.calls k = some (t, .raised) → .openCheckpointer k t ∈ l') ∧
          ∀ e, p'.calls k = some (t, .returned e) →
            ∃ j, .openCheckpointer j t ∈ l' ∧ .opened j t ∈ l' := by
  have hsafe := safe_of_run hrun
  refine ⟨?_, ?_, ?_, hsafe.raised, ?_⟩
  · intro t
    rw [hsafe.count t]
    split <;> omega
  · intro i j t e e' hi hj
    have hentry := hsafe.returned i t e hi
    rw [hsafe.returned j t e' hj] at hentry
    exact (Option.some.inj hentry).symm
  · rintro i j t t' e e' hi hj hne rfl
    exact hne (hsafe.entry_inj t t' e (hsafe.returned i t e hi) (hsafe.returned j t' e hj))
  · intro i t p₁ hfails
    obtain ⟨hentries, hothers, hlock, hnone⟩ := hfails.after_openFails hsafe
    have hsafe₁ := hsafe.step hfails
    -- what happens from here on starts with the lock free and no entry for the tenant
    refine ⟨hentries, hothers, ?_⟩
    intro k hk
    refine ⟨run_to_open hlock hnone hk, ?_⟩
    intro l' p' hrun'
    have hretried : Retried t (fun j => j = k) l' p' :=
      hrun'.log_invariant (P := Retried t (fun j => j = k))
        (fun _ _ _ _ hP hstep => hP.step hstep)
        (retried_start hsafe₁ hlock hnone (fun j hj => by rw [hj]; exact hk))
    refine ⟨hretried.raised k rfl, ?_⟩
    intro e he
    have hsafe' := safe_of_run ((hrun.snoc hfails).trans hrun')
    exact hretried.entry e (hsafe'.returned k t e he)

/-! ## A store that does not open -/

/-- The first open of a tenant fails, and the next call opens again. -/
theorem second_call_opens :
    ∃ p p₁, Run TenantPool.Step {}
        [.call 0 "acme", .queue 0, .acquire 0, .openCheckpointer 0 "acme"] p ∧
      TenantPool.Step p (.openFails 0 "acme") p₁ ∧
      ∃ p', Run TenantPool.Step p₁
        [.call 1 "acme", .queue 1, .acquire 1, .openCheckpointer 1 "acme"] p' := by
  let p : TenantPool :=
    { (((({} : TenantPool).goto 0 "acme" .entered).goto 0 "acme" .waiting).goto 0 "acme"
        .holding).goto 0 "acme" (.opening 0) with lock := some 0, opens := 1 }
  have hrun : Run TenantPool.Step {}
      [.call 0 "acme", .queue 0, .acquire 0, .openCheckpointer 0 "acme"] p := by
    refine (((Run.single (.call "acme" rfl)).snoc (.queue rfl rfl)).snoc (.acquire rfl rfl)).snoc ?_
    exact .openCheckpointer rfl rfl
  have hfails : TenantPool.Step p (.openFails 0 "acme")
      { p.goto 0 "acme" .raised with lock := none } := .openFails rfl
  refine ⟨p, _, hrun, hfails, ?_⟩
  exact (((tenant_store_opened_once hrun).2.2.2.2 0 "acme" _ hfails).2.2 1 rfl).1

end AgentRoom
