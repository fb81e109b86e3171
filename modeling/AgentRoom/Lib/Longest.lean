import Mathlib.Data.List.DropRight
import Mathlib.Data.List.Infix

set_option autoImplicit false

/-! # Longest prefixes and suffixes

Cutting a list until its last (first) element is acceptable gives the longest prefix (suffix)
that is empty or ends (starts) acceptably. A list has at most one longest prefix and one
longest suffix with a given property.
-/

namespace Longest

variable {α : Type*}

/-- A longest list with the property `P`. -/
def IsLongest (P : List α → Prop) (l : List α) : Prop :=
  P l ∧ ∀ k, P k → k.length ≤ l.length

/-- Empty, or ending in an element without `p`. -/
def EndsWithout (p : α → Bool) (l : List α) : Prop :=
  ∀ a ∈ l.getLast?, p a = false

/-- Empty, or starting with an element without `p`. -/
def StartsWithout (p : α → Bool) (l : List α) : Prop :=
  ∀ a ∈ l.head?, p a = false

instance (p : α → Bool) (l : List α) : Decidable (StartsWithout p l) :=
  inferInstanceAs (Decidable (∀ a ∈ l.head?, p a = false))

instance (p : α → Bool) (l : List α) : Decidable (EndsWithout p l) :=
  inferInstanceAs (Decidable (∀ a ∈ l.getLast?, p a = false))

theorem startsWithout_reverse {p : α → Bool} {l : List α} :
    StartsWithout p l.reverse ↔ EndsWithout p l := by
  rw [StartsWithout, EndsWithout, List.head?_reverse]

theorem startsWithout_dropWhile (p : α → Bool) (l : List α) :
    StartsWithout p (l.dropWhile p) := by
  intro a ha
  have h := List.head?_dropWhile_not p l
  rw [Option.mem_def] at ha
  rw [ha] at h
  exact h

/-- A suffix that starts without `p` is not reached by dropping what has `p`. -/
theorem suffix_dropWhile {p : α → Bool} {k l : List α} (hk : k <:+ l)
    (hstart : StartsWithout p k) : k <:+ l.dropWhile p := by
  induction l with
  | nil => exact hk
  | cons a l ih =>
      rw [List.dropWhile_cons]
      split
      · rename_i ha
        rcases List.suffix_cons_iff.mp hk with rfl | htail
        · have hno := hstart a rfl
          rw [ha] at hno
          cases hno
        · exact ih htail
      · exact hk

/-- Among the suffixes of the longest list with a property that passes to suffixes, the
longest one that starts without `p`. -/
theorem isLongest_dropWhile {P : List α → Prop} {l : List α} (p : α → Bool)
    (hsuffix : ∀ k, P k → k <:+ l) (hl : ∀ k, k <:+ l → P k) :
    IsLongest (fun k => P k ∧ StartsWithout p k) (l.dropWhile p) := by
  constructor
  · exact ⟨hl _ (List.dropWhile_suffix _), startsWithout_dropWhile p l⟩
  · intro k hk
    exact (suffix_dropWhile (hsuffix k hk.1) hk.2).length_le

theorem endsWithout_rdropWhile (p : α → Bool) (l : List α) :
    EndsWithout p (l.rdropWhile p) := by
  rw [← startsWithout_reverse, List.rdropWhile, List.reverse_reverse]
  exact startsWithout_dropWhile p l.reverse

theorem prefix_rdropWhile {p : α → Bool} {k l : List α} (hk : k <+: l)
    (hend : EndsWithout p k) : k <+: l.rdropWhile p := by
  rw [← List.reverse_suffix, List.rdropWhile, List.reverse_reverse]
  exact suffix_dropWhile (List.reverse_suffix.mpr hk) (startsWithout_reverse.mpr hend)

/-- The same from the other end. -/
theorem isLongest_rdropWhile {P : List α → Prop} {l : List α} (p : α → Bool)
    (hpre : ∀ k, P k → k <+: l) (hl : ∀ k, k <+: l → P k) :
    IsLongest (fun k => P k ∧ EndsWithout p k) (l.rdropWhile p) := by
  constructor
  · exact ⟨hl _ (List.rdropWhile_prefix _ _), endsWithout_rdropWhile p l⟩
  · intro k hk
    exact (prefix_rdropWhile (hpre k hk.1) hk.2).length_le

/-- A longest prefix is the only one. -/
theorem IsLongest.eq_of_prefix {P : List α → Prop} {k l m : List α} (hk : IsLongest P k)
    (hl : IsLongest P l) (hpre : ∀ x, P x → x <+: m) : k = l := by
  have hle : k.length ≤ l.length := hl.2 k hk.1
  have hge : l.length ≤ k.length := hk.2 l hl.1
  have hkl : k <+: l := List.prefix_of_prefix_length_le (hpre k hk.1) (hpre l hl.1) hle
  exact hkl.eq_of_length_le hge

/-- A longest suffix is the only one. -/
theorem IsLongest.eq_of_suffix {P : List α → Prop} {k l m : List α} (hk : IsLongest P k)
    (hl : IsLongest P l) (hsuf : ∀ x, P x → x <:+ m) : k = l := by
  have hle : k.length ≤ l.length := hl.2 k hk.1
  have hge : l.length ≤ k.length := hk.2 l hl.1
  have hkl : k <:+ l := List.suffix_of_suffix_length_le (hsuf k hk.1) (hsuf l hl.1) hle
  exact hkl.eq_of_length_le hge

end Longest
