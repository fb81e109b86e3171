import Mathlib.Data.List.Basic
import Mathlib.Tactic.Common

set_option autoImplicit false

/-! # Computations that can fail

Sequencing in `Except`: what a sequence that went through says about its parts (`bind_eq_ok`,
`exists_mem_of_mapM_ok`), and how a sequence runs once the result of its first part is known
(`ok_bind`, `mapM_cons_ok`).
-/

namespace Fallible

variable {ε α β : Type}

section Bind

variable {x : Except ε α} {f : α → Except ε β} {a : α} {r : β}

/-- When a sequence went through, both its parts did. -/
theorem bind_eq_ok (h : x >>= f = .ok r) : ∃ a, x = .ok a ∧ f a = .ok r := by
  cases x with
  | error e => cases h
  | ok a => exact ⟨a, rfl, h⟩

theorem ok_bind (h : x = .ok a) : x >>= f = f a := by
  rw [h]
  rfl

theorem error_bind {e : ε} (h : x = .error e) : x >>= f = .error e := by
  rw [h]
  rfl

/-- A sequence that failed did so in one of its parts. -/
theorem bind_eq_error {e : ε} (h : x >>= f = .error e) :
    x = .error e ∨ ∃ a, x = .ok a ∧ f a = .error e := by
  cases x with
  | error e' => exact .inl (congrArg Except.error (Except.error.inj h))
  | ok a => exact .inr ⟨a, rfl, h⟩

end Bind

/-! ## Other errors -/

section MapError

variable {ε' : Type} {x : Except ε α} {f : ε → ε'} {a : α} {e : ε'}

theorem mapError_eq_ok (h : x.mapError f = .ok a) : x = .ok a := by
  cases x with
  | error e => cases h
  | ok a' => exact congrArg Except.ok (Except.ok.inj h)

theorem mapError_eq_error (h : x.mapError f = .error e) : ∃ e', x = .error e' ∧ f e' = e := by
  cases x with
  | error e' => exact ⟨e', rfl, Except.error.inj h⟩
  | ok a => cases h

end MapError

/-! ## Traversals -/

section Traverse

variable {f : α → Except ε β} {a : α} {as : List α} {b : β} {bs : List β} {e : ε}

/-- A step of a traversal that does not fail. -/
theorem mapM_cons_ok (h : f a = .ok b) (hs : as.mapM f = .ok bs) :
    (a :: as).mapM f = .ok (b :: bs) := by
  rw [List.mapM_cons, ok_bind h, ok_bind hs]
  rfl

/-- A traversal that goes through does so step by step. -/
theorem mapM_cons_inv {r : List β} (h : (a :: as).mapM f = .ok r) :
    ∃ b bs, f a = .ok b ∧ as.mapM f = .ok bs ∧ r = b :: bs := by
  rw [List.mapM_cons] at h
  obtain ⟨b, hb, h⟩ := bind_eq_ok h
  obtain ⟨bs, hbs, h⟩ := bind_eq_ok h
  exact ⟨b, bs, hb, hbs, (Except.ok.inj h).symm⟩

/-- A traversal that fails at its first element. -/
theorem mapM_cons_of_error (h : f a = .error e) : (a :: as).mapM f = .error e := by
  rw [List.mapM_cons, error_bind h]

/-- A traversal that fails later on. -/
theorem mapM_cons_error (h : f a = .ok b) (hs : as.mapM f = .error e) :
    (a :: as).mapM f = .error e := by
  rw [List.mapM_cons, ok_bind h, error_bind hs]

/-- Every element of a traversal that goes through has its result. -/
theorem exists_mem_of_mapM_ok (h : as.mapM f = .ok bs) {x : α} (hx : x ∈ as) :
    ∃ y ∈ bs, f x = .ok y := by
  induction as generalizing bs with
  | nil => cases hx
  | cons a as ih =>
      obtain ⟨y, ys, hy, hys, rfl⟩ := mapM_cons_inv h
      rcases List.mem_cons.mp hx with rfl | hx
      · exact ⟨y, List.mem_cons_self, hy⟩
      · obtain ⟨z, hz, hfz⟩ := ih hys hx
        exact ⟨z, List.mem_cons_of_mem _ hz, hfz⟩

/-- What a traversal keeps of each element it keeps of the whole list. -/
theorem map_eq_of_mapM_ok {γ : Type*} {g : α → γ} {k : β → γ} (hf : ∀ a b, f a = .ok b → k b = g a)
    (h : as.mapM f = .ok bs) : bs.map k = as.map g := by
  induction as generalizing bs with
  | nil =>
      cases h
      rfl
  | cons a as ih =>
      obtain ⟨y, ys, hy, hys, rfl⟩ := mapM_cons_inv h
      rw [List.map_cons, List.map_cons, ih hys, hf a y hy]

/-- Every result of a traversal is that of an element. -/
theorem exists_mem_of_mem_result (h : as.mapM f = .ok bs) {y : β} (hy : y ∈ bs) :
    ∃ x ∈ as, f x = .ok y := by
  induction as generalizing bs with
  | nil =>
      cases h
      cases hy
  | cons a as ih =>
      obtain ⟨z, zs, hz, hzs, rfl⟩ := mapM_cons_inv h
      rcases List.mem_cons.mp hy with rfl | hy
      · exact ⟨a, List.mem_cons_self, hz⟩
      · obtain ⟨x, hx, hfx⟩ := ih hzs hy
        exact ⟨x, List.mem_cons_of_mem _ hx, hfx⟩

/-- A traversal with steps that succeed where others do. -/
theorem mapM_ok_imp {g : α → Except ε β} (hf : ∀ a b, f a = .ok b → g a = .ok b)
    (h : as.mapM f = .ok bs) : as.mapM g = .ok bs := by
  induction as generalizing bs with
  | nil => exact h
  | cons a as ih =>
      obtain ⟨y, ys, hy, hys, rfl⟩ := mapM_cons_inv h
      exact mapM_cons_ok (hf a y hy) (ih hys)

/-- A traversal whose results are known. -/
theorem mapM_eq_ok_map {g : α → β} (hf : ∀ a ∈ as, f a = .ok (g a)) :
    as.mapM f = .ok (as.map g) := by
  induction as with
  | nil => rfl
  | cons a as ih =>
      have hrest := ih (fun x hx => hf x (List.mem_cons_of_mem a hx))
      exact mapM_cons_ok (hf a List.mem_cons_self) hrest

/-- A traversal goes through if it does for every element. -/
theorem exists_mapM_ok (hf : ∀ a ∈ as, ∃ b, f a = .ok b) : ∃ bs, as.mapM f = .ok bs := by
  induction as with
  | nil => exact ⟨[], rfl⟩
  | cons a as ih =>
      obtain ⟨b, hb⟩ := hf a List.mem_cons_self
      obtain ⟨bs, hbs⟩ := ih (fun x hx => hf x (List.mem_cons_of_mem a hx))
      exact ⟨b :: bs, mapM_cons_ok hb hbs⟩

/-- A list of checks passes if each of them does. -/
theorem forM_eq_ok_iff {check : α → Except ε Unit} :
    as.forM check = .ok () ↔ ∀ a ∈ as, check a = .ok () := by
  induction as with
  | nil => exact ⟨fun _ _ h => absurd h List.not_mem_nil, fun _ => rfl⟩
  | cons a as ih =>
      rw [List.forall_mem_cons, ← ih]
      constructor
      · intro h
        obtain ⟨⟨⟩, ha, has⟩ := bind_eq_ok h
        exact ⟨ha, has⟩
      · rintro ⟨ha, has⟩
        show check a >>= (fun _ => as.forM check) = .ok ()
        rw [ok_bind ha, has]

end Traverse

end Fallible
