import Mathlib.Data.List.Basic
import Mathlib.Data.List.Infix
import Mathlib.Data.List.Perm.Subperm
import Mathlib.Tactic.Common

set_option autoImplicit false

/-! # A log that forgets its oldest entries

The entries of an append-only log are numbered from zero. A *window* of the log is what is left
of the numbered entries once a prefix is forgotten. A reader holds a number it has read up to;
what it was given is a sublist of the numbered entries below that number (`Delivered`), and
stays one when it is given the window above the number or when the log grows.
-/

namespace Replay

variable {α : Type*}

/-- The numbered entries from `base` on. -/
def window (entries : List α) (base : Nat) : List (α × Nat) := entries.zipIdx.drop base

@[simp]
theorem length_window (entries : List α) (base : Nat) :
    (window entries base).length = entries.length - base := by
  simp [window]

/-- Forgetting more. -/
theorem drop_window (entries : List α) (base n : Nat) :
    (window entries base).drop n = window entries (base + n) := by
  rw [window, window, List.drop_drop]

/-- A new entry is the last of every window that starts before it. -/
theorem window_concat {entries : List α} {base : Nat} (a : α) (h : base ≤ entries.length) :
    window (entries ++ [a]) base = window entries base ++ [(a, entries.length)] := by
  have hlen : base ≤ entries.zipIdx.length := by simpa using h
  rw [window, window, List.zipIdx_append, List.drop_append_of_le_length hlen]
  simp

theorem mem_window {entries : List α} {base : Nat} {x : α × Nat} :
    x ∈ window entries base ↔ base ≤ x.2 ∧ entries[x.2]? = some x.1 := by
  rw [window, List.mem_drop_iff_getElem]
  constructor
  · rintro ⟨i, hi, rfl⟩
    simp
  · rintro ⟨hbase, hget⟩
    obtain ⟨hlt, heq⟩ := List.getElem?_eq_some_iff.mp hget
    refine ⟨x.2 - base, by simpa using by omega, ?_⟩
    have hsum : base + (x.2 - base) = x.2 := by omega
    simp only [List.getElem_zipIdx, hsum, heq]
    simp

/-- A window lists its entries in the order of their numbers. -/
theorem pairwise_window (entries : List α) (base : Nat) :
    (window entries base).Pairwise fun x y => x.2 < y.2 := by
  refine List.Pairwise.sublist (List.drop_sublist _ _) ?_
  rw [List.pairwise_iff_getElem]
  intro i j hi hj hij
  simpa using hij

/-- A window that is not empty for nothing ends with the last entry. -/
theorem getLast?_window {entries : List α} {base : Nat}
    (h : base < entries.length ∨ entries = []) :
    (window entries base).getLast?.map Prod.fst = entries.getLast? := by
  rcases h with hlt | rfl
  · have hlen : ¬ entries.zipIdx.length ≤ base := by simpa using hlt
    rw [window, List.getLast?_drop, if_neg hlen, ← List.getLast?_map, List.zipIdx_map_fst]
  · simp [window]

/-- What a reader that has read up to `cursor` was given. -/
def Delivered (entries : List α) (cursor : Nat) (out : List (α × Nat)) : Prop :=
  out.Sublist (entries.zipIdx.take cursor)

namespace Delivered

variable {entries : List α} {cursor : Nat} {out : List (α × Nat)}

theorem nil (entries : List α) (cursor : Nat) : Delivered entries cursor [] :=
  List.nil_sublist _

theorem mono (h : Delivered entries cursor out) {cursor' : Nat} (hle : cursor ≤ cursor') :
    Delivered entries cursor' out := by
  refine List.Sublist.trans h ?_
  have htake : entries.zipIdx.take cursor = (entries.zipIdx.take cursor').take cursor := by
    rw [List.take_take, Nat.min_eq_left hle]
  rw [htake]
  exact List.take_sublist _ _

/-- A cursor past the end reads no more than one at the end. -/
theorem clamp (h : Delivered entries cursor out) : Delivered entries entries.length out := by
  refine List.Sublist.trans h ?_
  rw [List.take_of_length_le (by simp : entries.zipIdx.length ≤ entries.length)]
  exact List.take_sublist _ _

/-- The log only grows at its end. -/
theorem concat (h : Delivered entries cursor out) (a : α) :
    Delivered (entries ++ [a]) cursor out := by
  refine List.Sublist.trans h ?_
  rw [List.zipIdx_append, List.take_append]
  exact List.sublist_append_left _ _

/-- Reading from the cursor, or from where the window starts if that is later. -/
theorem append_window (h : Delivered entries cursor out) {base : Nat} (hle : cursor ≤ base) :
    Delivered entries entries.length (out ++ window entries base) := by
  have hall : entries.zipIdx.take entries.length =
      entries.zipIdx.take base ++ entries.zipIdx.drop base := by
    rw [List.take_append_drop, List.take_of_length_le (by simp)]
  rw [Delivered, hall]
  exact List.Sublist.append (h.mono hle) (List.Sublist.refl _)

/-- Part of what was given. -/
theorem of_sublist (h : Delivered entries cursor out) {out' : List (α × Nat)}
    (hsub : out'.Sublist out) : Delivered entries cursor out' :=
  hsub.trans h

theorem pairwise (h : Delivered entries cursor out) : out.Pairwise fun x y => x.2 < y.2 :=
  (pairwise_window entries 0).sublist (h.trans (List.take_sublist _ _))

theorem get (h : Delivered entries cursor out) {x : α × Nat} (hx : x ∈ out) :
    entries[x.2]? = some x.1 :=
  ((@mem_window _ entries 0 x).mp (List.mem_of_mem_take (h.subset hx))).2

theorem lt_cursor (h : Delivered entries cursor out) {x : α × Nat} (hx : x ∈ out) :
    x.2 < cursor := by
  obtain ⟨i, hi, heq⟩ := List.mem_take_iff_getElem.mp (h.subset hx)
  rw [← heq]
  simp only [List.length_zipIdx] at hi
  simpa using by omega

/-- The entry with the greatest number was given last. -/
theorem getLast?_eq (h : Delivered entries cursor out) {x : α × Nat} (hx : x ∈ out)
    (hmax : ∀ y ∈ out, y.2 ≤ x.2) : out.getLast? = some x := by
  obtain ⟨rest, last, hout⟩ :=
    (List.eq_nil_or_concat out).resolve_left (List.ne_nil_of_mem hx)
  rw [List.concat_eq_append] at hout
  subst hout
  rw [List.getLast?_concat]
  rcases List.mem_append.mp hx with hrest | hlast
  · have hlt := (List.pairwise_append.mp h.pairwise).2.2 x hrest last (by simp)
    have hle := hmax last (by simp)
    omega
  · rw [List.mem_singleton.mp hlast]

/-- A reader that was given every entry from `base` on was given a part of the window. -/
theorem eq_window (h : Delivered entries cursor out) {base : Nat} (hlater : ∀ x ∈ out, base ≤ x.2)
    (hall : ∀ i, base ≤ i → i < cursor → i < entries.length → ∃ a, (a, i) ∈ out) :
    out = (window entries base).take (cursor - base) := by
  have hwindow : (window entries base).take (cursor - base) =
      (entries.zipIdx.take cursor).drop base := by
    rw [window, List.drop_take]
  rw [hwindow]
  -- nothing comes from below `base`
  have hsub : out.Sublist ((entries.zipIdx.take cursor).drop base) := by
    have hsplit := h
    rw [Delivered, ← List.take_append_drop base (entries.zipIdx.take cursor)] at hsplit
    obtain ⟨low, high, rfl, hlow, hhigh⟩ := List.sublist_append_iff.mp hsplit
    have hnil : low = [] := by
      refine List.eq_nil_iff_forall_not_mem.mpr fun x hx => ?_
      have hge := hlater x (List.mem_append_left _ hx)
      obtain ⟨i, hi, heq⟩ := List.mem_take_iff_getElem.mp (hlow.subset hx)
      rw [← heq] at hge
      simp only [List.length_take, List.length_zipIdx] at hi
      simp only [List.getElem_take, List.getElem_zipIdx] at hge
      omega
    rwa [hnil, List.nil_append]
  refine hsub.eq_of_length_le ?_
  have hnodup : ((entries.zipIdx.take cursor).drop base).Nodup := by
    have hpairwise := ((pairwise_window entries 0).sublist (List.take_sublist cursor _)).sublist
      (List.drop_sublist base _)
    refine List.Pairwise.imp ?_ hpairwise
    rintro x y hlt rfl
    exact Nat.lt_irrefl _ hlt
  refine (hnodup.subperm ?_).length_le
  intro x hx
  obtain ⟨i, hi, heq⟩ := List.mem_drop_iff_getElem.mp hx
  simp only [List.length_take, List.length_zipIdx] at hi
  simp only [List.getElem_take, List.getElem_zipIdx] at heq
  obtain ⟨a, ha⟩ := hall (base + i) (by omega) (by omega) (by omega)
  have hget := h.get ha
  have hsame : x = (a, base + i) := by
    rw [← heq]
    obtain ⟨hlt, hentry⟩ := List.getElem?_eq_some_iff.mp hget
    simpa using hentry
  rw [hsame]
  exact ha

end Delivered

end Replay
