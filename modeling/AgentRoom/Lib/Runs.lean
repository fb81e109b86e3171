import Mathlib.Data.List.Induction
import Mathlib.Order.Basic
import Mathlib.Tactic.Common

set_option autoImplicit false

/-! # Runs of a labelled transition relation

A *run* is a finite path of a labelled transition relation together with the list of its
labels, in order. Safety of a system is an invariant carried along its runs
(`Run.invariant`, `Run.log_invariant`); two systems are compared by a relation that their
steps keep (`Run.simulate`), and a part of a system is split off by a map that does not see the
steps of the others (`Run.project`); a bound on the length of its runs is a natural-number rank that
every step pays for (`Run.length_add_rank_le`). `Within` stops a system after so many steps of one
kind in a row.

The second half is about deterministic systems driven by a stream of inputs: `drive` feeds
one input a step until a final state is reached, and `drive_reaches_final` turns a rank into
termination for every stream.
-/

namespace Transition

variable {σ ο : Type*} {step : σ → ο → σ → Prop}

/-- `Run step s l t`: a path from `s` to `t` whose labels are `l`. -/
inductive Run (step : σ → ο → σ → Prop) : σ → List ο → σ → Prop
  | refl (s : σ) : Run step s [] s
  | snoc {s t u : σ} {l : List ο} {o : ο} :
      Run step s l t → step t o u → Run step s (l ++ [o]) u

namespace Run

theorem single {s t : σ} {o : ο} (h : step s o t) : Run step s [o] t :=
  (Run.refl s).snoc h

theorem trans {s t u : σ} {l l' : List ο} (h : Run step s l t) (h' : Run step t l' u) :
    Run step s (l ++ l') u := by
  induction h' with
  | refl => simpa using h
  | snoc _ hstep ih =>
      rw [← List.append_assoc]
      exact ih.snoc hstep

theorem cons {s t u : σ} {o : ο} {l : List ο} (h : step s o t) (h' : Run step t l u) :
    Run step s (o :: l) u :=
  (single h).trans h'

/-- A run whose labels are a concatenation passes through a state in between. -/
theorem split {s u : σ} {l l' : List ο} (h : Run step s (l ++ l') u) :
    ∃ t, Run step s l t ∧ Run step t l' u := by
  induction l' using List.reverseRecOn generalizing u with
  | nil =>
      rw [List.append_nil] at h
      exact ⟨u, h, .refl u⟩
  | append_singleton l' o ih =>
      rw [← List.append_assoc] at h
      generalize hl : (l ++ l') ++ [o] = k at h
      cases h with
      | refl => simp at hl
      | snoc hrun hstep =>
          obtain ⟨rfl, ho⟩ := List.append_inj' hl rfl
          obtain ⟨t, h₁, h₂⟩ := ih hrun
          cases ho
          exact ⟨t, h₁, h₂.snoc hstep⟩

theorem nil_inv {s u : σ} (h : Run step s [] u) : u = s := by
  generalize hk : ([] : List ο) = k at h
  cases h with
  | refl => rfl
  | snoc _ _ => simp at hk

theorem cons_inv {s u : σ} {o : ο} {l : List ο} (h : Run step s (o :: l) u) :
    ∃ t, step s o t ∧ Run step t l u := by
  obtain ⟨t, h₁, h₂⟩ := Run.split (l := [o]) h
  generalize hk : [o] = k at h₁
  cases h₁ with
  | refl => simp at hk
  | snoc h₀ hstep =>
      rename_i l₀ _
      have hlen := congrArg List.length hk
      have hnil : l₀ = [] := List.length_eq_zero_iff.mp (by simpa using hlen)
      subst hnil
      cases hk
      exact ⟨t, nil_inv h₀ ▸ hstep, h₂⟩

/-- A run whose own steps are steps of another relation, under other labels, is a run of that
relation. -/
theorem map {ο' : Type*} {step' : σ → ο' → σ → Prop} {s t : σ} {l : List ο}
    (h : Run step s l t) (f : ο → ο') (himp : ∀ s o t, o ∈ l → step s o t → step' s (f o) t) :
    Run step' s (l.map f) t := by
  induction h with
  | refl => exact .refl _
  | snoc _ hstep ih =>
      rw [List.map_append]
      exact (ih (fun s o t ho => himp s o t (List.mem_append_left _ ho))).snoc
        (himp _ _ _ (by simp) hstep)

/-- A run of a relation is a run of any weaker one. -/
theorem mono {step' : σ → ο → σ → Prop} (himp : ∀ s o t, step s o t → step' s o t) {s t : σ}
    {l : List ο} (h : Run step s l t) : Run step' s l t := by
  induction h with
  | refl => exact .refl _
  | snoc _ hstep ih => exact ih.snoc (himp _ _ _ hstep)

/-- **The simulation rule.** If related states match each other's steps, with labels that look
the same, then a run is matched by a run whose labels look the same, up to related ends. -/
theorem simulate {τ ο' κ : Type*} {step' : τ → ο' → τ → Prop} {R : σ → τ → Prop} (view : ο → κ)
    (view' : ο' → κ)
    (hstep : ∀ s o t s', R s s' → step s o t →
      ∃ o' t', step' s' o' t' ∧ view' o' = view o ∧ R t t')
    {s t : σ} {s' : τ} {l : List ο} (h : Run step s l t) (hs : R s s') :
    ∃ l' t', Run step' s' l' t' ∧ l'.map view' = l.map view ∧ R t t' := by
  induction h with
  | refl => exact ⟨[], s', .refl s', rfl, hs⟩
  | snoc _ hst ih =>
      obtain ⟨l', u', hrun, hview, hu⟩ := ih
      obtain ⟨o', t', hst', ho, ht⟩ := hstep _ _ _ u' hu hst
      refine ⟨l' ++ [o'], t', hrun.snoc hst', ?_, ht⟩
      rw [List.map_append, List.map_append, hview, List.map_singleton, List.map_singleton, ho]

/-- **The invariant rule.** What holds at the start and is kept by every step holds at the
end of every run. -/
theorem invariant {P : σ → Prop} (hstep : ∀ s o t, P s → step s o t → P t)
    {s t : σ} {l : List ο} (h : Run step s l t) (hs : P s) : P t := by
  induction h with
  | refl => exact hs
  | snoc _ hst ih => exact hstep _ _ _ ih hst

/-- The invariant rule for properties that also look at the labels so far. -/
theorem log_invariant {P : List ο → σ → Prop}
    (hstep : ∀ l s o t, P l s → step s o t → P (l ++ [o]) t)
    {s t : σ} {l : List ο} (h : Run step s l t) (hs : P [] s) : P l t := by
  induction h with
  | refl => exact hs
  | snoc _ hst ih => exact hstep _ _ _ _ ih hst

/-- **The projection rule.** Take a map that sends the visible steps of an invariant to steps
with the same label and does not see the others. It sends a run to a run over the visible
labels. -/
theorem project {τ : Type*} {step' : τ → ο → τ → Prop} {P : σ → Prop} (f : σ → τ)
    (visible : ο → Bool) {s t : σ} {l : List ο}
    (hstep : ∀ s o t, o ∈ l → P s → step s o t →
      P t ∧ (visible o = true → step' (f s) o (f t)) ∧ (visible o = false → f t = f s))
    (h : Run step s l t) (hs : P s) : P t ∧ Run step' (f s) (l.filter visible) (f t) := by
  induction h with
  | refl => exact ⟨hs, .refl _⟩
  | @snoc t u l o hrun hst ih =>
      obtain ⟨hP, hproj⟩ := ih (fun s o t ho => hstep s o t (List.mem_append_left _ ho))
      obtain ⟨hP', hshown, hhidden⟩ := hstep _ _ _ (by simp) hP hst
      refine ⟨hP', ?_⟩
      rw [List.filter_append]
      cases hv : visible o with
      | true =>
          rw [List.filter_cons_of_pos hv, List.filter_nil]
          exact hproj.snoc (hshown hv)
      | false =>
          have hnot : ¬ visible o = true := by simp [hv]
          rw [List.filter_cons_of_neg hnot, List.filter_nil, List.append_nil, hhidden hv]
          exact hproj

/-- **The log rule.** A list to which every step appends what its label adds has grown, over a
run, by what all its labels add. -/
theorem accumulates {α : Type*} (log : σ → List α) (adds : ο → List α)
    (hstep : ∀ s o t, step s o t → log t = log s ++ adds o) {s t : σ} {l : List ο}
    (h : Run step s l t) : log t = log s ++ l.flatMap adds := by
  induction h with
  | refl => simp
  | snoc _ hst ih =>
      rw [hstep _ _ _ hst, ih, List.flatMap_append, List.flatMap_singleton, List.append_assoc]

/-- **The rank rule** for some of the labels: a rank that they decrease and that no other step
increases bounds how many of them a run has. -/
theorem countP_add_rank_le {P : σ → Prop} (rank : σ → ℕ) (mine : ο → Bool)
    (hstep : ∀ s o t, P s → step s o t →
      P t ∧ rank t + (if mine o then 1 else 0) ≤ rank s)
    {s t : σ} {l : List ο} (h : Run step s l t) (hs : P s) :
    P t ∧ l.countP mine + rank t ≤ rank s := by
  induction h with
  | refl => exact ⟨hs, by simp⟩
  | snoc _ hst ih =>
      obtain ⟨hP, hle⟩ := ih
      obtain ⟨hP', hlt⟩ := hstep _ _ _ hP hst
      refine ⟨hP', ?_⟩
      rw [List.countP_append, List.countP_singleton]
      omega

/-- The rank rule for all labels: a rank that every step of an invariant decreases bounds the
length of every run. -/
theorem length_add_rank_le {P : σ → Prop} (rank : σ → ℕ)
    (hstep : ∀ s o t, P s → step s o t → P t ∧ rank t + 1 ≤ rank s)
    {s t : σ} {l : List ο} (h : Run step s l t) (hs : P s) :
    P t ∧ l.length + rank t ≤ rank s := by
  have hcount := h.countP_add_rank_le rank (fun _ => true) (by simpa using hstep) hs
  rwa [List.countP_true] at hcount

end Run

/-! ## A limit on the steps of one kind -/

section Within

/-- The steps of a relation within a limit: at most `limit` of those that are `counted` follow one
another, and every other step starts the count again. -/
inductive Within (step : σ → ο → σ → Prop) (counted : ο → Bool) (limit : ℕ) :
    σ × ℕ → ο → σ × ℕ → Prop
  | counted {s t : σ} {o : ο} {n : ℕ} :
      counted o = true → n < limit → step s o t → Within step counted limit (s, n) o (t, n + 1)
  | restart {s t : σ} {o : ο} {n : ℕ} :
      counted o = false → step s o t → Within step counted limit (s, n) o (t, 0)

variable {counted : ο → Bool} {limit : ℕ}

/-- A run within a limit is a run. -/
theorem Run.forget {x y : σ × ℕ} {l : List ο} (h : Run (Within step counted limit) x l y) :
    Run step x.1 l y.1 := by
  induction h with
  | refl => exact .refl _
  | snoc _ hst ih =>
      cases hst with
      | counted _ _ hst => exact ih.snoc hst
      | restart _ hst => exact ih.snoc hst

theorem Run.count_le {x y : σ × ℕ} {l : List ο} (h : Run (Within step counted limit) x l y)
    (hx : x.2 ≤ limit) : y.2 ≤ limit := by
  refine h.invariant (P := fun y => y.2 ≤ limit) (fun y o z hy hst => ?_) hx
  cases hst with
  | counted _ hlt _ => exact hlt
  | restart _ _ => exact Nat.zero_le _

/-- A run no longer than the limit is within it. -/
theorem Run.within (counted : ο → Bool) {s t : σ} {l : List ο} (h : Run step s l t)
    (hlen : l.length ≤ limit) :
    ∃ n ≤ l.length, Run (Within step counted limit) (s, 0) l (t, n) := by
  induction h with
  | refl => exact ⟨0, Nat.le_refl _, .refl _⟩
  | @snoc t u l o _ hst ih =>
      rw [List.length_append, List.length_singleton] at hlen ⊢
      obtain ⟨n, hn, hrun⟩ := ih (by omega)
      cases hc : counted o with
      | true => exact ⟨n + 1, by omega, hrun.snoc (.counted hc (by omega) hst)⟩
      | false => exact ⟨0, by omega, hrun.snoc (.restart hc hst)⟩

end Within

/-! ## Termination of one party -/

/-- However the others are scheduled, the party whose steps are `mine` is over once it has taken
enough of them, and until then it can take one. -/
def Terminates (step : σ → ο → σ → Prop) (mine : ο → Bool) (ended : σ → Prop) (s : σ) : Prop :=
  (∃ n, ∀ l t, Run step s l t → n ≤ l.countP mine → ended t) ∧
    ∀ l t, Run step s l t → ended t ∨ ∃ o u, mine o = true ∧ step t o u

/-- **Termination from a rank** that the party's steps decrease and the others' steps keep. -/
theorem Terminates.of_rank {mine : ο → Bool} {ended P : σ → Prop} (rank : σ → ℕ)
    (hstep : ∀ s o t, P s → step s o t → P t ∧ rank t + (if mine o then 1 else 0) ≤ rank s)
    (hzero : ∀ s, P s → rank s = 0 → ended s)
    (hnext : ∀ s, P s → ended s ∨ ∃ o t, mine o = true ∧ step s o t) {s : σ} (hs : P s) :
    Terminates step mine ended s := by
  refine ⟨⟨rank s, ?_⟩, ?_⟩
  · intro l t hrun hn
    obtain ⟨hP, hle⟩ := hrun.countP_add_rank_le rank mine hstep hs
    exact hzero t hP (by omega)
  · intro l t hrun
    exact hnext t (hrun.countP_add_rank_le rank mine hstep hs).1

/-! ## Immediate predecessors in a log -/

/-- Every label of `l` with property `P` comes right after one with property `Q`. -/
def PrecededBy (P Q : ο → Prop) (l : List ο) : Prop :=
  ∀ l₁ o l₂, l = l₁ ++ o :: l₂ → P o → ∃ q, l₁.getLast? = some q ∧ Q q

theorem PrecededBy.nil {P Q : ο → Prop} : PrecededBy P Q [] := by
  intro l₁ o l₂ h
  simp at h

/-- What comes right before a label is somewhere before it. -/
theorem PrecededBy.exists_mem {P Q : ο → Prop} {l l₁ l₂ : List ο} {o : ο}
    (h : PrecededBy P Q l) (heq : l = l₁ ++ o :: l₂) (ho : P o) : ∃ q ∈ l₁, Q q := by
  obtain ⟨q, hq, hQ⟩ := h l₁ o l₂ heq ho
  exact ⟨q, List.mem_of_getLast? hq, hQ⟩

/-- Appending a label only asks about that label. -/
theorem PrecededBy.snoc {P Q : ο → Prop} {l : List ο} {o : ο} (h : PrecededBy P Q l)
    (ho : P o → ∃ q, l.getLast? = some q ∧ Q q) : PrecededBy P Q (l ++ [o]) := by
  intro l₁ o' l₂ heq hP
  rcases List.eq_nil_or_concat l₂ with rfl | ⟨l₂', x, rfl⟩
  · obtain ⟨rfl, hoo⟩ := List.append_inj' heq rfl
    cases hoo
    exact ho hP
  · have heq' : l ++ [o] = (l₁ ++ o' :: l₂') ++ [x] := by simpa using heq
    exact h l₁ o' l₂' (List.append_inj' heq' rfl).1 hP

/-! ## The first event in a log -/

section First

variable {β : Type*}

/-- No label of `l` is an event, given those before it. -/
def Quiet (event : List ο → ο → β → Prop) (l : List ο) : Prop :=
  ∀ l₁ o l₂, l = l₁ ++ o :: l₂ → ∀ d, ¬ event l₁ o d

/-- `o`, after `l`, is the first event, and it is of the kind `d`. -/
def IsFirst (event : List ο → ο → β → Prop) (l : List ο) (o : ο) (d : β) : Prop :=
  event l o d ∧ Quiet event l

theorem Quiet.nil {event : List ο → ο → β → Prop} : Quiet event [] := by
  intro l₁ o l₂ h
  simp at h

theorem quiet_snoc {event : List ο → ο → β → Prop} {l : List ο} {o : ο} :
    Quiet event (l ++ [o]) ↔ Quiet event l ∧ ∀ d, ¬ event l o d := by
  constructor
  · intro h
    refine ⟨?_, h l o [] rfl⟩
    intro l₁ o' l₂ heq
    exact h l₁ o' (l₂ ++ [o]) (by rw [heq, List.append_assoc, List.cons_append])
  · rintro ⟨h, ho⟩ l₁ o' l₂ heq
    rcases List.eq_nil_or_concat l₂ with rfl | ⟨l₂', x, rfl⟩
    · obtain ⟨rfl, hoo⟩ := List.append_inj' heq rfl
      cases hoo
      exact ho
    · have heq' : l ++ [o] = (l₁ ++ o' :: l₂') ++ [x] := by simpa using heq
      exact h l₁ o' l₂' (List.append_inj' heq' rfl).1

/-- Events that agree as long as nothing has happened have the same first one. -/
theorem isFirst_congr {event event' : List ο → ο → β → Prop}
    (h : ∀ l, Quiet event l → ∀ o d, event l o d ↔ event' l o d) {l : List ο} {o : ο} {d : β} :
    IsFirst event l o d ↔ IsFirst event' l o d := by
  have hquiet : ∀ l, Quiet event l ↔ Quiet event' l := by
    intro l
    induction l using List.reverseRecOn with
    | nil => exact iff_of_true .nil .nil
    | append_singleton l o ih =>
        rw [quiet_snoc, quiet_snoc, ← ih]
        constructor
        · rintro ⟨hl, ho⟩
          exact ⟨hl, fun d hd => ho d ((h l hl o d).mpr hd)⟩
        · rintro ⟨hl, ho⟩
          exact ⟨hl, fun d hd => ho d ((h l hl o d).mp hd)⟩
  constructor
  · rintro ⟨ho, hl⟩
    exact ⟨(h l hl o d).mp ho, (hquiet l).mp hl⟩
  · rintro ⟨ho, hl⟩
    have hl' := (hquiet l).mpr hl
    exact ⟨(h l hl' o d).mpr ho, hl'⟩

end First

/-! ## Deterministic systems driven by a stream of inputs -/

section Drive

variable {ι ε : Type*} (next : σ → ι → Except ε (ο × σ)) (final : σ → Bool)

/-- The first `n` inputs of `ω`, fed one a step; a final state consumes nothing. -/
def drive (ω : ℕ → ι) (s : σ) : ℕ → Except ε (List ο × σ)
  | 0 => .ok ([], s)
  | n + 1 =>
      match drive ω s n with
      | .error e => .error e
      | .ok (l, t) =>
          if final t then .ok (l, t)
          else
            match next t (ω n) with
            | .error e => .error e
            | .ok (o, u) => .ok (l ++ [o], u)

section Succ

variable {next final} {ω : ℕ → ι} {s t : σ} {n : ℕ} {l : List ο}

/-- One more input. -/
theorem drive_snoc {o : ο} {u : σ} (h : drive next final ω s n = .ok (l, t))
    (hfinal : final t = false) (hnext : next t (ω n) = .ok (o, u)) :
    drive next final ω s (n + 1) = .ok (l ++ [o], u) := by
  simp [drive, h, hfinal, hnext]

/-- What is raised ends the drive: no further input is fed. -/
theorem drive_error {e : ε} (h : drive next final ω s n = .ok (l, t)) (hfinal : final t = false)
    (hnext : next t (ω n) = .error e) {m : ℕ} (hm : n < m) :
    drive next final ω s m = .error e := by
  induction m with
  | zero => omega
  | succ m ih =>
      rcases Nat.lt_succ_iff_lt_or_eq.mp hm with hm | rfl
      · simp only [drive, ih hm]
      · simp [drive, h, hfinal, hnext]

end Succ

/-- What `drive` reports is a run. -/
theorem drive_run {step : σ → ο → σ → Prop} {ω : ℕ → ι} {s : σ}
    (hstep : ∀ n l t o u, drive next final ω s n = .ok (l, t) → final t = false →
      next t (ω n) = .ok (o, u) → step t o u) :
    ∀ {n : ℕ} {l : List ο} {t : σ}, drive next final ω s n = .ok (l, t) → Run step s l t := by
  intro n
  induction n with
  | zero =>
      intro l t h
      cases h
      exact .refl s
  | succ n ih =>
      intro l t h
      simp only [drive] at h
      split at h
      · cases h
      · rename_i l' t' hd
        split at h
        · cases h; exact ih hd
        · rename_i hfin
          split at h
          · cases h
          · rename_i o u hn
            cases h
            exact (ih hd).snoc (hstep n _ _ _ _ hd (by simpa using hfin) hn)

/-- **Termination from a rank.** If no step raises and every step from a non-final state
pays one unit of rank, every stream reaches a final state within `rank s` steps. -/
theorem drive_reaches_final {P : σ → Prop} (rank : σ → ℕ) {ω : ℕ → ι} {s : σ} (hs : P s)
    (hok : ∀ n l t, drive next final ω s n = .ok (l, t) → final t = false → P t →
      ∃ (o : ο) (u : σ), next t (ω n) = .ok (o, u) ∧ P u ∧ rank u + 1 ≤ rank t) :
    ∃ n l t, n ≤ rank s ∧ drive next final ω s n = .ok (l, t) ∧ final t = true := by
  by_contra hcon
  -- By induction on the steps: as long as no final state is reached, each has paid its unit.
  have key : ∀ n, n ≤ rank s → ∃ l t, drive next final ω s n = .ok (l, t) ∧ final t = false ∧
      P t ∧ n + rank t ≤ rank s := by
    intro n
    induction n with
    | zero =>
        intro _
        refine ⟨[], s, rfl, ?_, hs, by simp⟩
        by_contra hf
        exact hcon ⟨0, [], s, Nat.zero_le _, rfl, by simpa using hf⟩
    | succ n ih =>
        intro hn
        obtain ⟨l, t, hd, hf, hP, hle⟩ := ih (by omega)
        obtain ⟨o, u, hnext, hPu, hrank⟩ := hok n l t hd hf hP
        have hd' := drive_snoc hd hf hnext
        refine ⟨l ++ [o], u, hd', ?_, hPu, by omega⟩
        by_contra hfu
        exact hcon ⟨n + 1, _, u, hn, hd', by simpa using hfu⟩
  obtain ⟨l, t, hd, hf, hP, hle⟩ := key (rank s) (Nat.le_refl _)
  obtain ⟨o, u, -, -, hrank⟩ := hok _ l t hd hf hP
  omega

end Drive

end Transition
