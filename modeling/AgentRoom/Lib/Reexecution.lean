import Mathlib.Data.List.Basic
import Mathlib.Tactic.Common

set_option autoImplicit false

/-! # An executor that starts over at every answer

A task asks for answers one after the other. It is executed from its start whenever a new
answer arrives, and `f ds` are the effects of an execution that has the answers `ds`. The
effects of all executions are `started f ds`. They are the effects of the last one exactly when
no answer but the last has any (`started_perm_iff`).
-/

namespace Reexecution

variable {α β : Type*} (f : List α → List β)

/-- The effects of the first `n` executions, the `k`-th of which has the first `k` answers. -/
def started (ds : List α) (n : ℕ) : List β := (List.range n).flatMap (fun k => f (ds.take k))

@[simp] theorem started_zero (ds : List α) : started f ds 0 = [] := rfl

theorem started_succ (ds : List α) (n : ℕ) :
    started f ds (n + 1) = started f ds n ++ f (ds.take n) := by
  simp [started, List.range_succ]

/-- A further answer changes nothing about the executions before it. -/
theorem started_concat (ds : List α) (d : α) {n : ℕ} (hn : n ≤ ds.length + 1) :
    started f (ds ++ [d]) n = started f ds n := by
  induction n with
  | zero => rfl
  | succ n ih =>
      have htake : (ds ++ [d]).take n = ds.take n := List.take_append_of_le_length (by omega)
      rw [started_succ, started_succ, ih (by omega), htake]

variable {f}

/-- More answers, more effects: nothing was started if the last execution started nothing. -/
theorem started_eq_nil_iff (hmono : ∀ {ds ds'}, ds <+: ds' → f ds <+: f ds') (ds : List α)
    (n : ℕ) : started f ds (n + 1) = [] ↔ f (ds.take n) = [] := by
  constructor
  · intro h
    rw [started_succ] at h
    exact (List.append_eq_nil_iff.mp h).2
  · intro h
    refine List.flatMap_eq_nil_iff.mpr (fun k hk => ?_)
    have hle : k ≤ n := by
      have hlt := List.mem_range.mp hk
      omega
    have hpre := hmono (List.take_prefix_take_left hle : ds.take k <+: ds.take n)
    rw [h] at hpre
    exact List.prefix_nil.mp hpre

/-- **The effects of all executions are those of the last** exactly when all answers but the last
have none. -/
theorem started_perm_iff (hmono : ∀ {ds ds'}, ds <+: ds' → f ds <+: f ds') (hnil : f [] = [])
    (ds : List α) : (started f ds (ds.length + 1)).Perm (f ds) ↔ f ds.dropLast = [] := by
  have hlast : started f ds (ds.length + 1) = started f ds ds.length ++ f ds := by
    rw [started_succ, List.take_length]
  have hperm : (started f ds (ds.length + 1)).Perm (f ds) ↔ started f ds ds.length = [] := by
    rw [hlast]
    constructor
    · intro h
      have hlen := h.length_eq
      rw [List.length_append] at hlen
      exact List.length_eq_zero_iff.mp (by omega)
    · intro h
      rw [h, List.nil_append]
  rw [hperm, List.dropLast_eq_take]
  rcases Nat.eq_zero_or_pos ds.length with hzero | hpos
  · rw [List.length_eq_zero_iff.mp hzero]
    simp [hnil]
  · obtain ⟨n, hn⟩ := Nat.exists_eq_succ_of_ne_zero (Nat.pos_iff_ne_zero.mp hpos)
    rw [hn]
    exact started_eq_nil_iff hmono ds n

end Reexecution
