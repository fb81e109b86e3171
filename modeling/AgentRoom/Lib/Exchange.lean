import Mathlib.Data.List.Basic
import Mathlib.Data.List.Perm.Basic
import Mathlib.Tactic.Common

set_option autoImplicit false

/-! # Lists of requests and their answers

A conversation is a list whose elements are plain, are *requests* that carry the ids of the
answers they expect, or are *answers* to one id. It is *legal* when every request is followed
at once by exactly its answers, in any order, and no answer stands anywhere else.

The facts below say where such a list may be cut. A cut whose right part does not start with
an answer falls between two groups, and both parts are legal (`Legal.split`). The converse
also holds: if the left part of a legal list is legal then so is the rest
(`Legal.of_append_left`), so the rest does not start with an answer. A middle part may thus
be replaced by one plain element exactly when it does not start with an answer, provided what
follows it does not either (`Legal.elide_iff`).
-/

namespace Exchange

/-- What an element of a conversation is. -/
inductive Kind (κ : Type*)
  | plain
  | request (ids : List κ)
  | answer (id : κ)

/-- The element answers a request. -/
def Kind.isAnswer {κ : Type*} : Kind κ → Bool
  | .answer _ => true
  | _ => false

variable {α κ : Type*} (kind : α → Kind κ)

/-- **Legal conversations.** A request is followed by its answers, each exactly once. -/
inductive Legal : List α → Prop
  | nil : Legal []
  | plain {m : α} {l : List α} : kind m = .plain → Legal l → Legal (m :: l)
  | group {m : α} {as l : List α} {ids : List κ} :
      kind m = .request ids → (as.map kind).Perm (ids.map .answer) → Legal l →
      Legal (m :: (as ++ l))

variable {kind}

/-- The answers of a group are answers. -/
theorem isAnswer_of_mem_answers {as : List α} {ids : List κ}
    (h : (as.map kind).Perm (ids.map .answer)) {m : α} (hm : m ∈ as) :
    (kind m).isAnswer = true := by
  have hmem : kind m ∈ ids.map Kind.answer := h.mem_iff.mp (List.mem_map_of_mem hm)
  obtain ⟨id, -, hid⟩ := List.mem_map.mp hmem
  rw [← hid]
  rfl

theorem Legal.append {l l' : List α} (h : Legal kind l) (h' : Legal kind l') :
    Legal kind (l ++ l') := by
  induction h with
  | nil => exact h'
  | plain hm _ ih => exact .plain hm ih
  | group hm has _ ih =>
      rw [List.cons_append, List.append_assoc]
      exact .group hm has ih

theorem Legal.of_plain {l : List α} (h : ∀ m ∈ l, kind m = .plain) : Legal kind l := by
  induction l with
  | nil => exact .nil
  | cons m l ih =>
      have hm : kind m = .plain := h m List.mem_cons_self
      exact .plain hm (ih (fun m' hm' => h m' (List.mem_cons_of_mem _ hm')))

/-- One more plain element. -/
theorem Legal.concat {l : List α} {m : α} (h : Legal kind l) (hm : kind m = .plain) :
    Legal kind (l ++ [m]) :=
  h.append (.plain hm .nil)

/-- A request that is answered at once. -/
theorem Legal.answered {l as : List α} {m : α} {ids : List κ} (h : Legal kind l)
    (hm : kind m = .request ids) (has : as.map kind = ids.map .answer) :
    Legal kind (l ++ [m] ++ as) := by
  have hgroup : Legal kind (m :: (as ++ [])) := .group hm (.of_eq has) .nil
  rw [List.append_nil] at hgroup
  rw [List.append_assoc]
  exact h.append hgroup

/-- A legal conversation does not start with an answer. -/
theorem Legal.head_not_answer {l : List α} (h : Legal kind l) :
    ∀ m ∈ l.head?, (kind m).isAnswer = false := by
  intro m hm
  cases h with
  | nil => simp at hm
  | plain hk _ =>
      simp only [List.head?_cons, Option.mem_def, Option.some.injEq] at hm
      subst hm; rw [hk]; rfl
  | group hk _ _ =>
      simp only [List.head?_cons, Option.mem_def, Option.some.injEq] at hm
      subst hm; rw [hk]; rfl

/-- **Cutting between groups.** A cut whose right part does not start with an answer leaves
two legal parts. -/
theorem Legal.split {l l' : List α} (h : Legal kind (l ++ l'))
    (hhead : ∀ m ∈ l'.head?, (kind m).isAnswer = false) :
    Legal kind l ∧ Legal kind l' := by
  generalize hL : l ++ l' = L at h
  induction h generalizing l with
  | nil =>
      obtain ⟨rfl, rfl⟩ := List.append_eq_nil_iff.mp hL
      exact ⟨.nil, .nil⟩
  | plain hm hl ih =>
      cases l with
      | nil =>
          rw [List.nil_append] at hL
          subst hL
          exact ⟨.nil, .plain hm hl⟩
      | cons a l =>
          obtain ⟨rfl, hrest⟩ := List.cons.inj hL
          obtain ⟨h₁, h₂⟩ := ih hrest
          exact ⟨.plain hm h₁, h₂⟩
  | group hm has hl ih =>
      cases l with
      | nil =>
          rw [List.nil_append] at hL
          subst hL
          exact ⟨.nil, .group hm has hl⟩
      | cons a l =>
          obtain ⟨rfl, hrest⟩ := List.cons.inj hL
          rcases List.append_eq_append_iff.mp hrest with ⟨x, rfl, hx⟩ | ⟨x, rfl, hx⟩
          · -- the cut falls inside the answers: the right part would start with one
            cases x with
            | nil =>
                rw [List.nil_append] at hx
                subst hx
                rw [List.append_nil] at has
                exact ⟨by simpa using Legal.group hm has .nil, hl⟩
            | cons y ys =>
                have hy : (kind y).isAnswer = true :=
                  isAnswer_of_mem_answers has (by simp)
                rw [hx] at hhead
                have := hhead y rfl
                rw [hy] at this
                cases this
          · obtain ⟨h₁, h₂⟩ := ih hx.symm
            exact ⟨.group hm has h₁, h₂⟩

/-- If the left part of a legal conversation is legal, so is the rest. -/
theorem Legal.of_append_left {l l' : List α} (hl : Legal kind l)
    (h : Legal kind (l ++ l')) : Legal kind l' := by
  induction hl with
  | nil => exact h
  | plain hm _ ih =>
      rw [List.cons_append] at h
      generalize hL : _ :: (_ ++ l') = L at h
      cases h with
      | nil => cases hL
      | plain _ hl' => obtain ⟨-, rfl⟩ := List.cons.inj hL; exact ih hl'
      | group hm' _ _ =>
          obtain ⟨rfl, -⟩ := List.cons.inj hL
          rw [hm] at hm'
          cases hm'
  | group hm has _ ih =>
      rw [List.cons_append, List.append_assoc] at h
      generalize hL : _ :: (_ ++ (_ ++ l')) = L at h
      cases h with
      | nil => cases hL
      | plain hm' _ =>
          obtain ⟨rfl, -⟩ := List.cons.inj hL
          rw [hm] at hm'
          cases hm'
      | group hm' has' hl' =>
          obtain ⟨rfl, hrest⟩ := List.cons.inj hL
          rw [hm] at hm'
          cases hm'
          have hlen := (has.trans has'.symm).length_eq
          rw [List.length_map, List.length_map] at hlen
          obtain ⟨-, rfl⟩ := List.append_inj hrest hlen
          exact ih hl'

/-- **Where a legal conversation may be cut.** Its left part is legal exactly when the right
part does not start with an answer. -/
theorem Legal.left_iff {l l' : List α} (h : Legal kind (l ++ l')) :
    Legal kind l ↔ ∀ m ∈ l'.head?, (kind m).isAnswer = false :=
  ⟨fun hl => (hl.of_append_left h).head_not_answer, fun hhead => (h.split hhead).1⟩

/-- An answer never follows a plain element. -/
theorem Legal.not_answer_after_plain {l r : List α} {a b : α}
    (h : Legal kind (l ++ a :: b :: r)) (ha : kind a = .plain) :
    (kind b).isAnswer = false := by
  have hhead : ∀ m ∈ (a :: b :: r).head?, (kind m).isAnswer = false := by
    intro m hm
    obtain rfl : a = m := Option.some.inj hm
    rw [ha]
    rfl
  have hrest : Legal kind (a :: b :: r) := (h.split hhead).2
  have hone : Legal kind [a] := .plain ha .nil
  exact (hone.of_append_left hrest).head_not_answer b rfl

/-- **Replacing the middle of a legal conversation.** One plain element may stand for the
middle exactly when the head was cut off between two groups. -/
theorem Legal.elide_iff {h mid t : List α} {mk : α} (hl : Legal kind (h ++ (mid ++ t)))
    (hmk : kind mk = .plain) (ht : ∀ m ∈ t.head?, (kind m).isAnswer = false) :
    Legal kind (h ++ mk :: t) ↔ ∀ m ∈ (mid ++ t).head?, (kind m).isAnswer = false := by
  rw [← hl.left_iff]
  constructor
  · intro hout
    refine (hout.split ?_).1
    intro m hm
    obtain rfl : mk = m := Option.some.inj hm
    rw [hmk]
    rfl
  · intro hh
    have htail : Legal kind t := ((hh.of_append_left hl).split ht).2
    exact hh.append (.plain hmk htail)

end Exchange
