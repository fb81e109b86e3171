import Mathlib.Data.List.DropRight
import Mathlib.Tactic.Common

set_option autoImplicit false

/-! # Sliding windows

A window of width `n` over a stream keeps its `n` most recent items: `List.rtake n`. Trimming
after every arrival or once at the end is the same, so a window does not depend on how the
stream was cut into arrivals.
-/

namespace Window

variable {α : Type*}

/-- One arrival: the new items join on the right and the oldest ones leave. -/
def push (n : Nat) (window arrival : List α) : List α :=
  (window ++ arrival).rtake n

theorem rtake_of_length_le {n : Nat} {l : List α} (h : l.length ≤ n) : l.rtake n = l := by
  rw [List.rtake, Nat.sub_eq_zero_of_le h, List.drop_zero]

/-- **Trimming commutes with later arrivals.** -/
theorem push_rtake (n : Nat) (l m : List α) : push n (l.rtake n) m = (l ++ m).rtake n := by
  have hleft : (l.rtake n ++ m).reverse.take n = (l ++ m).reverse.take n := by
    rw [List.rtake_eq_reverse_take_reverse, List.reverse_append, List.reverse_append,
      List.reverse_reverse, List.take_append, List.take_append, List.take_take,
      min_eq_left (Nat.sub_le n _)]
  rw [push, List.rtake_eq_reverse_take_reverse, hleft, List.rtake_eq_reverse_take_reverse]

/-- **A run of arrivals leaves the last items of the whole stream**, whatever the arrivals'
sizes. -/
theorem foldl_push (n : Nat) (arrivals : List (List α)) :
    ∀ l : List α, arrivals.foldl (push n) (l.rtake n) = (l ++ arrivals.flatten).rtake n := by
  induction arrivals with
  | nil => intro l; rw [List.foldl_nil, List.flatten_nil, List.append_nil]
  | cons arrival rest ih =>
      intro l
      rw [List.foldl_cons, push_rtake, ih, List.flatten_cons, List.append_assoc]

end Window
