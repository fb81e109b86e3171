import Mathlib.Data.Set.Function
import Mathlib.Logic.Function.Basic
import Mathlib.Data.List.Basic

set_option autoImplicit false

/-! # Cells that keep their first writer

A table of cells addressed by a key of the value itself. A cell that is taken keeps what it
has, so after any sequence of writes a cell holds the first value written under its key
(`putAll_apply`). Every value can be read back exactly when the key tells the written values
apart (`reads_back_iff`).
-/

namespace FirstWriter

variable {κ α : Type*}

/-- What each key names. -/
abbrev Cells (κ α : Type*) := κ → Option α

def empty : Cells κ α := fun _ => none

variable [DecidableEq κ] (key : α → κ)

/-- A write under the value's own key; a taken cell keeps its value. -/
def put (cells : Cells κ α) (a : α) : Cells κ α :=
  match cells (key a) with
  | none => Function.update cells (key a) (some a)
  | some _ => cells

def putAll (cells : Cells κ α) (as : List α) : Cells κ α := as.foldl (put key) cells

theorem put_apply (cells : Cells κ α) (a : α) (k : κ) :
    put key cells a k = (cells k).or (if key a = k then some a else none) := by
  unfold put
  by_cases hk : key a = k
  · subst hk
    cases hcell : cells (key a) with
    | none => simp
    | some b => simp [hcell]
  · cases hcell : cells (key a) with
    | none => simp [Function.update_of_ne (Ne.symm hk), hk]
    | some b => simp [hk]

/-- **The first writer stays.** -/
theorem putAll_apply (cells : Cells κ α) (as : List α) (k : κ) :
    putAll key cells as k = (cells k).or (as.find? fun a => key a = k) := by
  induction as generalizing cells with
  | nil => simp [putAll]
  | cons a as ih =>
      calc putAll key cells (a :: as) k
          = putAll key (put key cells a) as k := rfl
        _ = ((cells k).or (if key a = k then some a else none)).or
              (as.find? fun b => key b = k) := by rw [ih, put_apply]
        _ = (cells k).or ((a :: as).find? fun b => key b = k) := by
              by_cases hk : key a = k <;> simp [hk]

variable {key}

/-- **Read back.** Every value is found under its key iff the key tells the values apart. -/
theorem reads_back_iff {as : List α} :
    (∀ a ∈ as, putAll key empty as (key a) = some a) ↔ Set.InjOn key {a | a ∈ as} := by
  constructor
  · intro hback a ha b hb hkey
    have hsome : some a = some b := by
      rw [← hback a ha, ← hback b hb, hkey]
    exact Option.some.inj hsome
  · intro hinj a ha
    rw [putAll_apply]
    show as.find? (fun b => key b = key a) = some a
    have hfound : (as.find? fun b => key b = key a).isSome := by
      rw [List.find?_isSome]
      exact ⟨a, ha, by simp⟩
    obtain ⟨b, hb⟩ := Option.isSome_iff_exists.mp hfound
    have hkey : key b = key a := by simpa using List.find?_some hb
    rw [hb, hinj (List.mem_of_find?_eq_some hb) ha hkey]

end FirstWriter
