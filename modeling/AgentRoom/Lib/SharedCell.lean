import AgentRoom.Lib.Runs
import Mathlib.Data.List.Sublists

set_option autoImplicit false

/-! # Two callers of one shared cell

Two callers each update a shared value once and then go on working. Nothing serialises them:
an update *reads* the latest value and later *writes* what it computed from that read, and the
work *loads* the latest value once and from then on *saves* its own copy. `Cell` is that system
for any kind of value (`Behaviour`), and a map of values maps runs to runs (`run_map`).

For values that are lists, to which each caller appends one entry, the last part says exactly
which schedules lose an entry (`entries_perm_iff`): the schedules that are `Lost`, a predicate
on the order of the operations alone.
-/

namespace SharedCell

open Transition

inductive Caller
  | first | second
  deriving DecidableEq, Repr

def Caller.other : Caller → Caller
  | .first => .second
  | .second => .first

/-- What a caller does, in this order; it may save any number of times. -/
inductive Op
  | read | write | load | save | finish
  deriving DecidableEq, Repr

/-- An operation of one of the callers. -/
abbrev Label := Caller × Op

/-- How far a caller is, with the copy it works on. -/
inductive Phase (σ : Type*)
  | waiting
  | reading (copy : σ)
  | updated
  | running (copy : σ)
  | returned

/-- The latest value, and where each caller is. -/
structure Cell (σ : Type*) where
  latest : σ
  phase : Caller → Phase σ

/-- How a value is updated and worked on. -/
structure Behaviour (σ : Type*) where
  /-- What a caller writes, from what it read. -/
  modify : Caller → σ → σ → Prop
  /-- One round of work on a copy. -/
  work : σ → σ → Prop
  /-- The work is over. -/
  idle : σ → Prop

namespace Caller

@[simp] theorem other_other (i : Caller) : i.other.other = i := by cases i <;> rfl

@[simp] theorem other_ne (i : Caller) : i.other ≠ i := by cases i <;> decide

@[simp] theorem ne_other (i : Caller) : i ≠ i.other := by cases i <;> decide

theorem eq_or_eq_other (i k : Caller) : k = i ∨ k = i.other := by
  cases i <;> cases k <;> simp [other]

end Caller

namespace Cell

variable {σ : Type*}

/-- Both callers wait. -/
def start (x : σ) : Cell σ := { latest := x, phase := fun _ => .waiting }

def goto (s : Cell σ) (i : Caller) (p : Phase σ) : Cell σ :=
  { s with phase := Function.update s.phase i p }

def store (s : Cell σ) (x : σ) : Cell σ := { s with latest := x }

section Fields

variable (s : Cell σ) (i : Caller) (p : Phase σ) (x : σ)

@[simp] theorem goto_latest : (s.goto i p).latest = s.latest := rfl

@[simp] theorem goto_phase : (s.goto i p).phase i = p := Function.update_self ..

@[simp] theorem goto_phase_other : (s.goto i p).phase i.other = s.phase i.other :=
  Function.update_of_ne (Caller.other_ne i) _ _

@[simp] theorem goto_other_phase : (s.goto i.other p).phase i = s.phase i :=
  Function.update_of_ne (Caller.ne_other i) _ _

@[simp] theorem store_latest : (s.store x).latest = x := rfl

@[simp] theorem store_phase : (s.store x).phase = s.phase := rfl

end Fields

end Cell

/-- One operation of one caller. -/
inductive Step {σ : Type*} (B : Behaviour σ) : Cell σ → Label → Cell σ → Prop
  | read {s : Cell σ} {i : Caller} : s.phase i = .waiting →
      Step B s (i, .read) (s.goto i (.reading s.latest))
  | write {s : Cell σ} {i : Caller} {x y : σ} : s.phase i = .reading x → B.modify i x y →
      Step B s (i, .write) ((s.store y).goto i .updated)
  | load {s : Cell σ} {i : Caller} : s.phase i = .updated →
      Step B s (i, .load) (s.goto i (.running s.latest))
  | save {s : Cell σ} {i : Caller} {x y : σ} : s.phase i = .running x → B.work x y →
      Step B s (i, .save) ((s.store y).goto i (.running y))
  | finish {s : Cell σ} {i : Caller} {x : σ} : s.phase i = .running x → B.idle x →
      Step B s (i, .finish) (s.goto i .returned)

/-- The work of one caller alone: as many saves as it has rounds, the last of which stays. -/
theorem run_saves {σ : Type*} {B : Behaviour σ} {ο : Type*} {work : σ → ο → σ → Prop}
    (hwork : ∀ x o y, work x o y → B.work x y) {x y : σ} {os : List ο} (h : Run work x os y)
    {s : Cell σ} {i : Caller} (hi : s.phase i = .running x) :
    ∃ t : Cell σ, Run (Step B) s (List.replicate os.length (i, .save)) t ∧
      t.phase i = .running y ∧ t.phase i.other = s.phase i.other ∧
      t.latest = if os = [] then s.latest else y := by
  induction h with
  | refl => exact ⟨s, .refl s, hi, rfl, rfl⟩
  | @snoc y z os o _ hstep ih =>
      obtain ⟨t, hrun, hphase, hother, -⟩ := ih
      refine ⟨(t.store z).goto i (.running z), ?_, by simp, by simpa using hother, by simp⟩
      rw [List.length_append, List.length_singleton, List.replicate_succ']
      exact hrun.snoc (.save hphase (hwork _ _ _ hstep))

/-- One caller alone: its update, its work and its return. -/
theorem run_alone {σ : Type*} {B : Behaviour σ} {ο : Type*} {work : σ → ο → σ → Prop}
    (hwork : ∀ x o y, work x o y → B.work x y) {i : Caller} {x y z : σ} {os : List ο}
    (hmodify : B.modify i x y) (h : Run work y os z) (hidle : B.idle z) {s : Cell σ}
    (hi : s.phase i = .waiting) (hs : s.latest = x) :
    ∃ t : Cell σ, Run (Step B) s
        ([(i, .read), (i, .write), (i, .load)] ++ List.replicate os.length (i, .save)
          ++ [(i, .finish)]) t ∧
      t.phase i = .returned ∧ t.phase i.other = s.phase i.other ∧ t.latest = z := by
  subst hs
  have hread := Step.read (B := B) hi
  have hwrite := Step.write (B := B) (s := s.goto i (.reading s.latest)) (i := i)
    (Cell.goto_phase ..) hmodify
  have hload := Step.load (B := B)
    (s := ((s.goto i (.reading s.latest)).store y).goto i .updated) (i := i) (Cell.goto_phase ..)
  obtain ⟨t, hrun, hphase, hother, hlatest⟩ := run_saves hwork h (Cell.goto_phase _ i (.running y))
  have hupdated := ((Run.single hread).snoc hwrite).snoc hload
  refine ⟨t.goto i .returned, (hupdated.trans hrun).snoc (.finish hphase hidle), by simp, ?_, ?_⟩
  · simpa using hother
  · rcases eq_or_ne os [] with rfl | hne
    · simpa [h.nil_inv] using hlatest
    · simpa [hne] using hlatest

/-! ## Maps of values -/

section Map

variable {σ τ : Type*} (f : σ → τ)

def Phase.map : Phase σ → Phase τ
  | .waiting => .waiting
  | .reading x => .reading (f x)
  | .updated => .updated
  | .running x => .running (f x)
  | .returned => .returned

def Cell.map (s : Cell σ) : Cell τ :=
  { latest := f s.latest, phase := fun i => (s.phase i).map f }

theorem Cell.map_goto (s : Cell σ) (i : Caller) (p : Phase σ) :
    (s.goto i p).map f = (s.map f).goto i (p.map f) :=
  congrArg (Cell.mk (f s.latest)) (Function.comp_update (Phase.map f) s.phase i p)

theorem Cell.map_store (s : Cell σ) (x : σ) : (s.store x).map f = (s.map f).store (f x) := rfl

variable {B : Behaviour σ} {B' : Behaviour τ}

/-- A map that respects the behaviours maps operations to operations. -/
theorem step_map (hmodify : ∀ i x y, B.modify i x y → B'.modify i (f x) (f y))
    (hwork : ∀ x y, B.work x y → B'.work (f x) (f y)) (hidle : ∀ x, B.idle x → B'.idle (f x))
    {s t : Cell σ} {o : Label} (h : Step B s o t) : Step B' (s.map f) o (t.map f) := by
  cases h with
  | read hp =>
      rw [Cell.map_goto]
      exact .read (congrArg (Phase.map f) hp)
  | write hp hm =>
      rw [Cell.map_goto, Cell.map_store]
      exact .write (congrArg (Phase.map f) hp) (hmodify _ _ _ hm)
  | load hp =>
      rw [Cell.map_goto]
      exact .load (congrArg (Phase.map f) hp)
  | save hp hw =>
      rw [Cell.map_goto, Cell.map_store]
      exact .save (congrArg (Phase.map f) hp) (hwork _ _ hw)
  | finish hp hi =>
      rw [Cell.map_goto]
      exact .finish (congrArg (Phase.map f) hp) (hidle _ hi)

/-- … and runs to runs, under the same labels. -/
theorem run_map (hmodify : ∀ i x y, B.modify i x y → B'.modify i (f x) (f y))
    (hwork : ∀ x y, B.work x y → B'.work (f x) (f y)) (hidle : ∀ x, B.idle x → B'.idle (f x))
    {s t : Cell σ} {l : List Label} (h : Run (Step B) s l t) :
    Run (Step B') (s.map f) l (t.map f) := by
  induction h with
  | refl => exact .refl _
  | snoc _ hstep ih => exact ih.snoc (step_map f hmodify hwork hidle hstep)

end Map

/-! ## Schedules that lose an entry -/

/-- A caller writes what it computed from a read older than the other's write. -/
def Crossed (l : List Label) : Prop :=
  ∃ i : Caller, [(i, Op.read), (i.other, Op.write), (i, Op.write)].Sublist l

/-- Caller `i` has loaded its copy before the other's write. -/
def Stale (i : Caller) (l : List Label) : Prop :=
  [(i, Op.load), (i.other, Op.write)].Sublist l

/-- Caller `i` saves a stale copy, and the other never repairs it: it has not loaded before, or
does not save again. -/
def Overwrites (i : Caller) (l : List Label) : Prop :=
  ∃ before after, l = before ++ (i, Op.save) :: after ∧ Stale i before ∧
    ((i.other, Op.load) ∉ before ∨ (i.other, Op.save) ∉ after)

/-- **The schedules that lose an entry.** -/
def Lost (l : List Label) : Prop := Crossed l ∨ ∃ i, Overwrites i l

/-- Caller `i` saves a stale copy for the other to load. -/
def Misleads (i : Caller) (l : List Label) : Prop :=
  ∃ before after, l = before ++ (i, Op.save) :: after ∧ Stale i before ∧
    (i.other, Op.load) ∉ before

section Logs

variable {α : Type*} {l : List α} {a b c o : α}

theorem pair_sublist_concat :
    [a, b].Sublist (l ++ [o]) ↔ [a, b].Sublist l ∨ a ∈ l ∧ b = o := by
  rw [← List.reverse_sublist, ← @List.reverse_sublist _ _ l]
  simp [List.cons_sublist_cons', and_comm]

theorem triple_sublist_concat :
    [a, b, c].Sublist (l ++ [o]) ↔ [a, b, c].Sublist l ∨ [a, b].Sublist l ∧ c = o := by
  rw [← List.reverse_sublist, ← @List.reverse_sublist _ _ l, ← @List.reverse_sublist _ [a, b] l]
  simp [List.cons_sublist_cons', and_comm]

/-- A label of a log with one more entry is the new one or has its place in the log. -/
theorem concat_eq_append_cons {l₁ l₂ : List α} :
    l ++ [o] = l₁ ++ a :: l₂ ↔ (l = l₁ ∧ o = a ∧ l₂ = []) ∨
      ∃ l₃, l₂ = l₃ ++ [o] ∧ l = l₁ ++ a :: l₃ := by
  constructor
  · intro h
    rcases List.eq_nil_or_concat l₂ with rfl | ⟨l₃, x, rfl⟩
    · obtain ⟨rfl, hoa⟩ := List.append_inj' h rfl
      exact .inl ⟨rfl, by simpa using hoa, rfl⟩
    · have h' : l ++ [o] = (l₁ ++ a :: l₃) ++ [x] := by simpa using h
      obtain ⟨rfl, hox⟩ := List.append_inj' h' rfl
      exact .inr ⟨l₃, by simpa using hox.symm, rfl⟩
  · rintro (⟨rfl, rfl, rfl⟩ | ⟨l₃, rfl, rfl⟩) <;> simp

end Logs

section Schedules

variable {i : Caller} {l : List Label} {o : Label}

theorem Stale.write_mem (h : Stale i l) : (i.other, Op.write) ∈ l := h.subset (by simp)

theorem Stale.load_mem (h : Stale i l) : (i, Op.load) ∈ l := h.subset (by simp)

theorem stale_concat :
    Stale i (l ++ [o]) ↔ Stale i l ∨ (i, Op.load) ∈ l ∧ (i.other, Op.write) = o :=
  pair_sublist_concat

/-- What overwrites is stale. -/
theorem Overwrites.stale (h : Overwrites i l) : Stale i l := by
  obtain ⟨before, after, rfl, hstale, -⟩ := h
  exact hstale.trans (List.sublist_append_left _ _)

theorem misleads_concat :
    Misleads i (l ++ [o]) ↔
      Misleads i l ∨ o = (i, Op.save) ∧ Stale i l ∧ (i.other, Op.load) ∉ l := by
  unfold Misleads
  constructor
  · rintro ⟨before, after, heq, hstale, hload⟩
    rcases concat_eq_append_cons.mp heq with ⟨rfl, rfl, -⟩ | ⟨after, -, rfl⟩
    · exact .inr ⟨rfl, hstale, hload⟩
    · exact .inl ⟨before, after, rfl, hstale, hload⟩
  · rintro (⟨before, after, rfl, hstale, hload⟩ | ⟨rfl, hstale, hload⟩)
    · exact ⟨before, after ++ [o], by simp, hstale, hload⟩
    · exact ⟨l, [], rfl, hstale, hload⟩

/-- What overwrites is a save of a stale copy. -/
theorem Overwrites.stale_save (h : Overwrites i l) :
    [(i, Op.load), (i.other, Op.write), (i, Op.save)].Sublist l := by
  obtain ⟨before, after, rfl, hstale, -⟩ := h
  have hsave : [(i, Op.save)].Sublist ((i, Op.save) :: after) := by simp
  exact hstale.append hsave

/-- Nothing is lost where the writes do not cross and nobody saves a stale copy. -/
theorem not_lost (hcrossed : ¬ Crossed l)
    (hsave : ∀ i : Caller, ¬ [(i, Op.load), (i.other, Op.write), (i, Op.save)].Sublist l) :
    ¬ Lost l := by
  rintro (hc | ⟨k, hov⟩)
  · exact hcrossed hc
  · exact hsave k hov.stale_save

/-- A stale save overwrites at once. -/
theorem overwrites_save (hstale : Stale i l) : Overwrites i (l ++ [(i, Op.save)]) :=
  ⟨l, [], rfl, hstale, .inr (by simp)⟩

/-- A save of the other repairs what it has not been misled by. -/
theorem overwrites_other_save :
    Overwrites i (l ++ [(i.other, Op.save)]) ↔ Misleads i l := by
  unfold Overwrites Misleads
  constructor
  · rintro ⟨before, after, heq, hstale, hor⟩
    rcases concat_eq_append_cons.mp heq with ⟨-, hsave, -⟩ | ⟨after, rfl, rfl⟩
    · simp at hsave
    · exact ⟨before, after, rfl, hstale, hor.resolve_right (by simp)⟩
  · rintro ⟨before, after, rfl, hstale, hload⟩
    exact ⟨before, after ++ [(i.other, Op.save)], by simp, hstale, .inl hload⟩

/-- No other operation makes a difference. -/
theorem overwrites_concat (ho : o.2 ≠ .save) : Overwrites i (l ++ [o]) ↔ Overwrites i l := by
  unfold Overwrites
  constructor
  · rintro ⟨before, after, heq, hstale, hor⟩
    rcases concat_eq_append_cons.mp heq with ⟨-, rfl, -⟩ | ⟨after, rfl, rfl⟩
    · exact absurd rfl ho
    · exact ⟨before, after, rfl, hstale, hor.imp_right (fun h hm => h (List.mem_append_left _ hm))⟩
  · rintro ⟨before, after, rfl, hstale, hor⟩
    refine ⟨before, after ++ [o], by simp, hstale, hor.imp_right (fun h hm => ?_)⟩
    rcases List.mem_append.mp hm with hm | hm
    · exact h hm
    · rw [← List.mem_singleton.mp hm] at ho
      exact ho rfl

/-- Both predicates on the order of the writes only change with a write. -/
theorem crossed_concat (ho : o.2 ≠ .write) : Crossed (l ++ [o]) ↔ Crossed l := by
  unfold Crossed
  refine exists_congr fun k => ?_
  rw [triple_sublist_concat, or_iff_left]
  rintro ⟨-, rfl⟩
  exact ho rfl

theorem stale_concat_of_ne (ho : o.2 ≠ .write) : Stale i (l ++ [o]) ↔ Stale i l := by
  rw [stale_concat, or_iff_left]
  rintro ⟨-, rfl⟩
  exact ho rfl

theorem misleads_concat_of_ne (ho : o ≠ (i, .save)) : Misleads i (l ++ [o]) ↔ Misleads i l := by
  rw [misleads_concat, or_iff_left]
  rintro ⟨heq, -⟩
  exact ho heq

/-- A caller that has not loaded is misled by whatever overwrites. -/
theorem misleads_iff_overwrites (hload : (i.other, Op.load) ∉ l) :
    Misleads i l ↔ Overwrites i l := by
  constructor
  · rintro ⟨before, after, rfl, hstale, hbefore⟩
    exact ⟨before, after, rfl, hstale, .inl hbefore⟩
  · rintro ⟨before, after, rfl, hstale, -⟩
    exact ⟨before, after, rfl, hstale, fun hm => hload (List.mem_append_left _ hm)⟩

end Schedules

/-! ## How far the callers are -/

/-- The operations a caller has made, up to its saves. -/
def Phase.rank {σ : Type*} : Phase σ → Nat
  | .waiting => 0
  | .reading _ => 1
  | .updated => 2
  | .running _ | .returned => 3

/-- Before and after an operation. -/
def Op.ranks : Op → Nat × Nat
  | .read => (0, 1)
  | .write => (1, 2)
  | .load => (2, 3)
  | .save | .finish => (3, 3)

/-- The log says how far a caller is. -/
structure Progress {σ : Type*} (l : List Label) (s : Cell σ) (i : Caller) : Prop where
  read : (i, Op.read) ∈ l ↔ 1 ≤ (s.phase i).rank
  write : (i, Op.write) ∈ l ↔ 2 ≤ (s.phase i).rank
  load : (i, Op.load) ∈ l ↔ 3 ≤ (s.phase i).rank

section Progress

variable {σ : Type*} {B : Behaviour σ} {l : List Label} {s t : Cell σ} {o : Label}

/-- An operation moves its caller only. -/
theorem Step.ranks (h : Step B s o t) :
    ((s.phase o.1).rank, (t.phase o.1).rank) = o.2.ranks ∧
      t.phase o.1.other = s.phase o.1.other := by
  cases h with
  | read hp => simp [hp, Phase.rank, Op.ranks]
  | write hp _ => simp [hp, Phase.rank, Op.ranks]
  | load hp => simp [hp, Phase.rank, Op.ranks]
  | save hp _ => simp [hp, Phase.rank, Op.ranks]
  | finish hp _ => simp [hp, Phase.rank, Op.ranks]

theorem Progress.step {i : Caller} (h : Progress l s i) (hs : Step B s o t) :
    Progress (l ++ [o]) t i := by
  obtain ⟨hread, hwrite, hload⟩ := h
  obtain ⟨k, op⟩ := o
  obtain ⟨hranks, hother⟩ := hs.ranks
  rcases Caller.eq_or_eq_other k i with rfl | rfl
  · obtain ⟨hbefore, hafter⟩ := Prod.mk.inj hranks
    constructor <;> simp only [List.mem_append, List.mem_singleton, *] <;> cases op <;> simp
  · constructor <;> simp_all

theorem Progress.of_run {x : σ} (h : Run (Step B) (.start x) l s) (i : Caller) :
    Progress l s i := by
  refine h.log_invariant (P := fun l s => Progress l s i) (fun _ _ _ _ hp hs => hp.step hs) ?_
  constructor <;> simp [Cell.start, Phase.rank]

end Progress

/-! ## Two entries in one list -/

section Entries

variable {α : Type*}

/-- Each caller appends its entry, and the work keeps the list. -/
def appending (entry : Caller → α) : Behaviour (List α) where
  modify i xs ys := ys = xs ++ [entry i]
  work xs ys := ys = xs
  idle _ := True

variable (old : List α) (entry : Caller → α)

/-- A list with the entry of `i`, and with the other's entry unless that is missing. -/
def Has (missing : Prop) (i : Caller) (xs : List α) : Prop :=
  (missing ∧ xs = old ++ [entry i]) ∨ (¬ missing ∧ xs = old ++ [entry i, entry i.other])

/-- **What the list and the copies hold**, by the writes so far. -/
inductive Held (l : List Label) (s : Cell (List α)) : Prop
  /-- Nobody has written. -/
  | none : (∀ i, (s.phase i).rank < 2) → s.latest = old →
      (∀ i xs, s.phase i = .reading xs → xs = old) → Held l s
  /-- Caller `i` has written; the other may have read before. -/
  | one (i : Caller) : 2 ≤ (s.phase i).rank → (s.phase i.other).rank < 2 →
      s.latest = old ++ [entry i] → (∀ xs, s.phase i = .running xs → xs = old ++ [entry i]) →
      (∀ xs, s.phase i.other = .reading xs →
        [(i.other, Op.read), (i, Op.write)].Sublist l ∧ xs = old ∨
          ¬ [(i.other, Op.read), (i, Op.write)].Sublist l ∧ xs = old ++ [entry i]) → Held l s
  /-- The writes have crossed: nobody will ever hold both entries. -/
  | crossed : (∀ i, 2 ≤ (s.phase i).rank) → Crossed l → s.latest.length = old.length + 1 →
      (∀ i xs, s.phase i = .running xs → xs.length = old.length + 1) → Held l s
  /-- Both have written, and nobody has a stale copy. -/
  | fresh (i : Caller) : (∀ k, 2 ≤ (s.phase k).rank) → ¬ Crossed l → (∀ k, ¬ Stale k l) →
      s.latest = old ++ [entry i, entry i.other] →
      (∀ k xs, s.phase k = .running xs → xs = old ++ [entry i, entry i.other]) → Held l s
  /-- Both have written, and caller `i` works on a copy without the other's entry. -/
  | stale (i : Caller) : (∀ k, 2 ≤ (s.phase k).rank) → ¬ Crossed l → ¬ Stale i.other l →
      Stale i l → Has old entry (Overwrites i l) i s.latest →
      (∀ xs, s.phase i = .running xs → xs = old ++ [entry i]) →
      (∀ xs, s.phase i.other = .running xs → Has old entry (Misleads i l) i xs) → Held l s

variable {old entry} {l : List Label} {s t : Cell (List α)} {o : Label} {k : Caller} {x : List α}

/-- A caller that has written stays one that has. -/
theorem rank_goto_of_le {n : Nat} {p : Phase (List α)} (hn : n ≤ p.rank)
    (h : ∀ i, n ≤ (s.phase i).rank) (i : Caller) : n ≤ ((s.goto k p).phase i).rank := by
  rcases Caller.eq_or_eq_other k i with rfl | rfl
  · rwa [Cell.goto_phase]
  · rw [Cell.goto_phase_other]
    exact h _

theorem Held.read (h : Held old entry l s) (hprog : ∀ i, Progress l s i)
    (hk : s.phase k = .waiting) :
    Held old entry (l ++ [(k, .read)]) (s.goto k (.reading s.latest)) := by
  have hnot : ¬ ∀ i, 2 ≤ (s.phase i).rank := fun hall => by simpa [hk, Phase.rank] using hall k
  cases h with
  | none hrank hlatest hcopy =>
      refine .none (fun i => ?_) hlatest (fun i xs hi => ?_)
      · rcases Caller.eq_or_eq_other k i with rfl | rfl
        · simp [Phase.rank]
        · simpa using hrank k.other
      · rcases Caller.eq_or_eq_other k i with rfl | rfl
        · rw [Cell.goto_phase] at hi
          cases hi
          exact hlatest
        · exact hcopy _ _ (by simpa using hi)
  | one i hi hother hlatest hcopy _ =>
      -- the caller that reads is the other one
      rcases Caller.eq_or_eq_other i k with rfl | rfl
      · simp [hk, Phase.rank] at hi
      · refine .one i (by simpa using hi) (by simp [Phase.rank]) hlatest (by simpa using hcopy) ?_
        intro xs hxs
        rw [Cell.goto_phase] at hxs
        cases hxs
        refine .inr ⟨?_, hlatest⟩
        rw [pair_sublist_concat, not_or]
        refine ⟨fun hsub => ?_, by simp⟩
        have hread := (hprog i.other).read.mp (hsub.subset (by simp))
        simp [hk, Phase.rank] at hread
  | crossed hall => exact absurd hall hnot
  | fresh _ hall => exact absurd hall hnot
  | stale _ hall => exact absurd hall hnot

/-- The writes of two callers cross only when the second one has read before the first one. -/
theorem not_crossed_write {i : Caller} (hnew : (i.other, Op.write) ∉ l)
    (hsub : ¬ [(i.other, Op.read), (i, Op.write)].Sublist l) :
    ¬ Crossed (l ++ [(i.other, .write)]) := by
  rintro ⟨k, hk⟩
  rw [triple_sublist_concat] at hk
  rcases Caller.eq_or_eq_other i k with rfl | rfl
  · rcases hk with hk | ⟨-, hk⟩
    · exact hnew (hk.subset (by simp))
    · simp at hk
  · rcases hk with hk | ⟨hk, -⟩
    · exact hnew (hk.subset (by simp))
    · rw [Caller.other_other] at hk
      exact hsub hk

/-- A caller that has not loaded has no stale copy, whatever comes next. -/
theorem not_stale_concat {i : Caller} (hload : (i, Op.load) ∉ l) : ¬ Stale i (l ++ [o]) := by
  rw [stale_concat]
  rintro (hst | ⟨hm, -⟩)
  · exact hload hst.load_mem
  · exact hload hm

/-- The second write, of a caller that has read the first one. -/
theorem Held.write_second {i : Caller} (hprog : ∀ i, Progress l s i)
    (hi : 2 ≤ (s.phase i).rank) (hk : s.phase i.other = .reading (old ++ [entry i]))
    (hsub : ¬ [(i.other, Op.read), (i, Op.write)].Sublist l)
    (hcopy : ∀ xs, s.phase i = .running xs → xs = old ++ [entry i]) :
    Held old entry (l ++ [(i.other, .write)])
      ((s.store (old ++ [entry i] ++ [entry i.other])).goto i.other .updated) := by
  have hall : ∀ k, 2 ≤ (((s.store (old ++ [entry i] ++ [entry i.other])).goto i.other
      .updated).phase k).rank := by
    intro k
    rcases Caller.eq_or_eq_other i k with rfl | rfl
    · simpa using hi
    · simp [Phase.rank]
  have hnew : (i.other, Op.write) ∉ l := fun hm => by
    have hrank := (hprog i.other).write.mp hm
    simp [hk, Phase.rank] at hrank
  have hload : (i.other, Op.load) ∉ l := fun hm => by
    have hrank := (hprog i.other).load.mp hm
    simp [hk, Phase.rank] at hrank
  have hcrossed := not_crossed_write hnew hsub
  by_cases hloaded : (i, Op.load) ∈ l
  · -- the other's entry is in the cell but not in the copy of `i`
    have hfresh : ¬ Stale i l := fun hst => hnew hst.write_mem
    refine .stale i hall hcrossed (not_stale_concat hload)
      (stale_concat.mpr (.inr ⟨hloaded, rfl⟩)) ?_ ?_ ?_
    · refine .inr ⟨?_, by simp⟩
      rw [overwrites_concat (by simp)]
      exact fun hov => hfresh hov.stale
    · simpa using hcopy
    · simp
  · have hrank := mt (hprog i).load.mpr hloaded
    refine .fresh i hall hcrossed (fun k => ?_) (by simp) (fun k xs hxs => ?_)
    · rcases Caller.eq_or_eq_other i k with rfl | rfl
      · exact not_stale_concat hloaded
      · exact not_stale_concat hload
    · rcases Caller.eq_or_eq_other i k with rfl | rfl
      · rw [Cell.goto_other_phase, Cell.store_phase] at hxs
        simp [hxs, Phase.rank] at hrank
      · simp at hxs

theorem Held.write (h : Held old entry l s) (hprog : ∀ i, Progress l s i)
    (hk : s.phase k = .reading x) :
    Held old entry (l ++ [(k, .write)]) ((s.store (x ++ [entry k])).goto k .updated) := by
  have hnot : ¬ ∀ i, 2 ≤ (s.phase i).rank := fun hall => by simpa [hk, Phase.rank] using hall k
  cases h with
  | none hrank hlatest hcopy =>
      have hx := hcopy k x hk
      subst hx
      refine .one k (by simp [Phase.rank]) (by simpa using hrank k.other) rfl (by simp) ?_
      intro xs hxs
      rw [Cell.goto_phase_other, Cell.store_phase] at hxs
      -- the other has read already
      have hread : (k.other, Op.read) ∈ l := (hprog k.other).read.mpr (by simp [hxs, Phase.rank])
      exact .inl ⟨pair_sublist_concat.mpr (.inr ⟨hread, rfl⟩), hcopy _ _ hxs⟩
  | one i hi hother hlatest hcopy hread =>
      rcases Caller.eq_or_eq_other i k with rfl | rfl
      · simp [hk, Phase.rank] at hi
      · rcases hread x hk with ⟨hsub, rfl⟩ | ⟨hsub, rfl⟩
        · -- what it read is older than the write of `i`
          refine .crossed (fun k => ?_) ⟨i.other, ?_⟩ (by simp) (fun k xs hxs => ?_)
          · rcases Caller.eq_or_eq_other i k with rfl | rfl
            · simpa using hi
            · simp [Phase.rank]
          · rw [Caller.other_other]
            exact triple_sublist_concat.mpr (.inr ⟨hsub, rfl⟩)
          · rcases Caller.eq_or_eq_other i k with rfl | rfl
            · simp [hcopy xs (by simpa using hxs)]
            · simp at hxs
        · exact .write_second hprog hi hk hsub hcopy
  | crossed hall => exact absurd hall hnot
  | fresh _ hall => exact absurd hall hnot
  | stale _ hall => exact absurd hall hnot

theorem Held.load (h : Held old entry l s) (hprog : ∀ i, Progress l s i)
    (hk : s.phase k = .updated) :
    Held old entry (l ++ [(k, .load)]) (s.goto k (.running s.latest)) := by
  have hrank : (s.phase k).rank = 2 := by rw [hk]; rfl
  have hnew : (k, Op.load) ∉ l := fun hm => by
    have hle := (hprog k).load.mp hm
    omega
  cases h with
  | none hlt =>
      have hlt' := hlt k
      omega
  | one i hi hother hlatest hcopy hread =>
      rcases Caller.eq_or_eq_other i k with rfl | rfl
      · refine .one k (by simp [Phase.rank]) (by simpa using hother) hlatest ?_ ?_
        · intro xs hxs
          rw [Cell.goto_phase] at hxs
          cases hxs
          exact hlatest
        · simpa [pair_sublist_concat] using hread
      · omega
  | crossed hall hcrossed hlatest hcopy =>
      refine .crossed (rank_goto_of_le (by simp [Phase.rank]) hall)
        ((crossed_concat (by simp)).mpr hcrossed) hlatest (fun i xs hxs => ?_)
      rcases Caller.eq_or_eq_other k i with rfl | rfl
      · rw [Cell.goto_phase] at hxs
        cases hxs
        exact hlatest
      · exact hcopy _ _ (by simpa using hxs)
  | fresh i hall hcrossed hstale hlatest hcopy =>
      refine .fresh i (rank_goto_of_le (by simp [Phase.rank]) hall)
        (by rwa [crossed_concat (by simp)]) (fun k => ?_) hlatest (fun i xs hxs => ?_)
      · rw [stale_concat_of_ne (by simp)]
        exact hstale k
      · rcases Caller.eq_or_eq_other k i with rfl | rfl
        · rw [Cell.goto_phase] at hxs
          cases hxs
          exact hlatest
        · exact hcopy _ _ (by simpa using hxs)
  | stale i hall hcrossed hother hstale hlatest hcopy hcopy' =>
      rcases Caller.eq_or_eq_other i k with rfl | rfl
      · exact absurd hstale.load_mem hnew
      · refine .stale i (rank_goto_of_le (by simp [Phase.rank]) hall)
          (by rwa [crossed_concat (by simp)]) (by rwa [stale_concat_of_ne (by simp)])
          ((stale_concat_of_ne (by simp)).mpr hstale) (by rwa [overwrites_concat (by simp)])
          (by simpa using hcopy) (fun xs hxs => ?_)
        -- what it loads has been overwritten or not
        rw [Cell.goto_phase] at hxs
        cases hxs
        rwa [misleads_concat_of_ne (by simp), misleads_iff_overwrites hnew]

theorem Held.save (h : Held old entry l s) (hprog : ∀ i, Progress l s i)
    (hk : s.phase k = .running x) :
    Held old entry (l ++ [(k, .save)]) ((s.store x).goto k (.running x)) := by
  have hrank : (s.phase k).rank = 3 := by rw [hk]; rfl
  have hphase : ∀ {i xs}, ((s.store x).goto k (.running x)).phase i = .running xs →
      s.phase i = .running xs := by
    intro i xs hxs
    rcases Caller.eq_or_eq_other k i with rfl | rfl
    · rw [Cell.goto_phase] at hxs
      rw [hk, hxs]
    · simpa using hxs
  cases h with
  | none hlt =>
      have hlt' := hlt k
      omega
  | one i hi hother hlatest hcopy hread =>
      rcases Caller.eq_or_eq_other i k with rfl | rfl
      · refine .one k (by simp [Phase.rank]) (by simpa using hother) (hcopy x hk)
          (fun xs hxs => hcopy xs (hphase hxs)) ?_
        simpa [pair_sublist_concat] using hread
      · omega
  | crossed hall hcrossed hlatest hcopy =>
      exact .crossed (rank_goto_of_le (by simp [Phase.rank]) hall)
        ((crossed_concat (by simp)).mpr hcrossed) (hcopy k x hk)
        (fun i xs hxs => hcopy i xs (hphase hxs))
  | fresh i hall hcrossed hstale hlatest hcopy =>
      refine .fresh i (rank_goto_of_le (by simp [Phase.rank]) hall)
        (by rwa [crossed_concat (by simp)]) (fun k => ?_) (hcopy k x hk)
        (fun i xs hxs => hcopy i xs (hphase hxs))
      rw [stale_concat_of_ne (by simp)]
      exact hstale k
  | stale i hall hcrossed hother hstale hlatest hcopy hcopy' =>
      have hall' := rank_goto_of_le (s := s.store x) (k := k) (p := .running x)
        (by simp [Phase.rank]) hall
      rcases Caller.eq_or_eq_other i k with rfl | rfl
      · refine .stale k hall' (by rwa [crossed_concat (by simp)])
          (by rwa [stale_concat_of_ne (by simp)]) ((stale_concat_of_ne (by simp)).mpr hstale)
          (.inl ⟨overwrites_save hstale, hcopy x hk⟩) (fun xs hxs => hcopy xs (hphase hxs))
          (fun xs hxs => ?_)
        -- the other has loaded its copy, so it is not misled any more
        have hxs' := hphase hxs
        have hloaded : (k.other, Op.load) ∈ l :=
          (hprog k.other).load.mpr (by simp [hxs', Phase.rank])
        have hmis : Misleads k (l ++ [(k, .save)]) ↔ Misleads k l := by
          rw [misleads_concat, or_iff_left]
          exact fun hnew => hnew.2.2 hloaded
        rw [Has, hmis]
        exact hcopy' xs hxs'
      · refine .stale i hall' (by rwa [crossed_concat (by simp)])
          (by rwa [stale_concat_of_ne (by simp)]) ((stale_concat_of_ne (by simp)).mpr hstale)
          ?_ (fun xs hxs => hcopy xs (hphase hxs)) (fun xs hxs => ?_)
        · rw [overwrites_other_save]
          exact hcopy' x hk
        · rw [misleads_concat_of_ne (by simp)]
          exact hcopy' xs (hphase hxs)

theorem Held.finish (h : Held old entry l s) (hk : s.phase k = .running x) :
    Held old entry (l ++ [(k, .finish)]) (s.goto k .returned) := by
  have hrank : (s.phase k).rank = 3 := by rw [hk]; rfl
  have hphase : ∀ {i xs}, (s.goto k .returned).phase i = .running xs →
      s.phase i = .running xs := by
    intro i xs hxs
    rcases Caller.eq_or_eq_other k i with rfl | rfl
    · simp at hxs
    · simpa using hxs
  cases h with
  | none hlt =>
      have hlt' := hlt k
      omega
  | one i hi hother hlatest hcopy hread =>
      rcases Caller.eq_or_eq_other i k with rfl | rfl
      · refine .one k (by simp [Phase.rank]) (by simpa using hother) hlatest
          (fun xs hxs => hcopy xs (hphase hxs)) ?_
        simpa [pair_sublist_concat] using hread
      · omega
  | crossed hall hcrossed hlatest hcopy =>
      exact .crossed (rank_goto_of_le (by simp [Phase.rank]) hall)
        ((crossed_concat (by simp)).mpr hcrossed) hlatest (fun i xs hxs => hcopy i xs (hphase hxs))
  | fresh i hall hcrossed hstale hlatest hcopy =>
      refine .fresh i (rank_goto_of_le (by simp [Phase.rank]) hall)
        (by rwa [crossed_concat (by simp)]) (fun k => ?_) hlatest
        (fun i xs hxs => hcopy i xs (hphase hxs))
      rw [stale_concat_of_ne (by simp)]
      exact hstale k
  | stale i hall hcrossed hother hstale hlatest hcopy hcopy' =>
      refine .stale i (rank_goto_of_le (by simp [Phase.rank]) hall)
        (by rwa [crossed_concat (by simp)]) (by rwa [stale_concat_of_ne (by simp)])
        ((stale_concat_of_ne (by simp)).mpr hstale) (by rwa [overwrites_concat (by simp)])
        (fun xs hxs => hcopy xs (hphase hxs)) (fun xs hxs => ?_)
      rw [misleads_concat_of_ne (by simp)]
      exact hcopy' xs (hphase hxs)

theorem Held.of_run (h : Run (Step (appending entry)) (.start old) l s) : Held old entry l s := by
  refine (h.log_invariant (P := fun l s => (∀ i, Progress l s i) ∧ Held old entry l s) ?_ ?_).2
  · rintro l s o t ⟨hprog, hheld⟩ hs
    refine ⟨fun i => (hprog i).step hs, ?_⟩
    cases hs with
    | read hp => exact hheld.read hprog hp
    | write hp hm =>
        cases hm
        exact hheld.write hprog hp
    | load hp => exact hheld.load hprog hp
    | save hp hw =>
        cases hw
        exact hheld.save hprog hp
    | finish hp _ => exact hheld.finish hp
  · exact ⟨fun i => @Progress.of_run _ (appending entry) _ _ _ (.refl _) i,
      .none (by simp [Cell.start, Phase.rank]) rfl
      (by simp [Cell.start])⟩

/-- **Exactly the lost schedules lose an entry**, once both callers are through. -/
theorem entries_perm_iff (h : Run (Step (appending entry)) (.start old) l s)
    (hdone : ∀ i, s.phase i = .returned) :
    s.latest.Perm (old ++ [entry .first, entry .second]) ↔ ¬ Lost l := by
  have hperm : ∀ i, (old ++ [entry i, entry i.other]).Perm
      (old ++ [entry .first, entry .second]) := by
    intro i
    cases i with
    | first => exact .refl _
    | second => exact (List.Perm.swap _ _ _).append_left old
  have hshort : ∀ {xs : List α}, xs.length = old.length + 1 →
      ¬ xs.Perm (old ++ [entry .first, entry .second]) := by
    intro xs hlen hp
    have hlen' := hp.length_eq
    simp only [List.length_append, List.length_cons, List.length_nil] at hlen'
    omega
  have hrank : ∀ i, (s.phase i).rank = 3 := fun i => by rw [hdone i]; rfl
  cases Held.of_run h with
  | none hlt =>
      have hlt' := hlt .first
      have hr := hrank .first
      omega
  | one i _ hother =>
      have hr := hrank i.other
      omega
  | crossed _ hcrossed hlatest => exact iff_of_false (hshort hlatest) (fun hn => hn (.inl hcrossed))
  | fresh i _ hcrossed hstale hlatest =>
      rw [hlatest]
      refine iff_of_true (hperm i) ?_
      rintro (hc | ⟨k, hov⟩)
      · exact hcrossed hc
      · exact hstale k hov.stale
  | stale i _ hcrossed hother _ hlatest =>
      have hlost : Lost l ↔ Overwrites i l := by
        refine ⟨?_, fun hov => .inr ⟨i, hov⟩⟩
        rintro (hc | ⟨k, hov⟩)
        · exact absurd hc hcrossed
        · rcases Caller.eq_or_eq_other i k with rfl | rfl
          · exact hov
          · exact absurd hov.stale hother
      rw [hlost]
      rcases hlatest with ⟨hov, hlatest⟩ | ⟨hov, hlatest⟩
      · exact iff_of_false (hshort (by simp [hlatest])) (fun hn => hn hov)
      · rw [hlatest]
        exact iff_of_true (hperm i) hov

end Entries

end SharedCell
