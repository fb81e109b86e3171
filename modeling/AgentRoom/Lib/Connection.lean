import AgentRoom.Lib.Runs
import Mathlib.Logic.Function.Basic

set_option autoImplicit false

/-! # Calls that share a connection

Concurrent calls run their statements on one connection, a statement at a time and in any order.
What they write is seen at once, and is kept over a crash as soon as one of them commits.

A call whose statements amount to one operation at one moment, with a commit between a write and
the reply, is `Tracks`ed. If all calls are, the connection cannot be told from a store on which
every operation is atomic, and whose replies stay true over a crash (`Conn.refines`).
-/

namespace Connection

open Transition (Run)

/-! ## The connection -/

/-- What is left to do of a call. -/
inductive Coroutine (σ ρ : Type*)
  | done (r : ρ)
  /-- A statement: what it makes of the content, and how the call goes on after it. -/
  | exec (write : σ → σ) (next : σ → Coroutine σ ρ)
  | commit (next : Coroutine σ ρ)

/-- The content as the calls see it, what would survive a crash, and the calls under way. -/
structure Conn (κ σ ρ : Type*) where
  content : σ
  durable : σ
  calls : κ → Option (Coroutine σ ρ)

/-- What the callers notice. -/
inductive Label (κ ω ρ : Type*)
  | invoke (c : κ) (op : ω)
  | internal
  | reply (c : κ) (r : ρ)
  /-- The call goes no further, and nobody hears of it. -/
  | abandon (c : κ)
  | crash

variable {κ σ ρ ω α : Type*}

namespace Conn

/-- A connection that has just been opened. -/
def opened (content : σ) : Conn κ σ ρ := ⟨content, content, fun _ => none⟩

variable [DecidableEq κ]

/-- Calls start with `start`; where a statement or a commit is refused, they end with
`refused`. -/
inductive Step (start : ω → Coroutine σ ρ) (refused : ρ) :
    Conn κ σ ρ → Label κ ω ρ → Conn κ σ ρ → Prop
  | invoke {s : Conn κ σ ρ} {c : κ} {op : ω} (h : s.calls c = none) :
      Step start refused s (.invoke c op)
        { s with calls := Function.update s.calls c (some (start op)) }
  | exec {s : Conn κ σ ρ} {c : κ} {write : σ → σ} {next : σ → Coroutine σ ρ}
      (h : s.calls c = some (.exec write next)) :
      Step start refused s .internal
        { s with
          content := write s.content
          calls := Function.update s.calls c (some (next s.content)) }
  | commit {s : Conn κ σ ρ} {c : κ} {next : Coroutine σ ρ}
      (h : s.calls c = some (.commit next)) :
      Step start refused s .internal
        { s with
          durable := s.content
          calls := Function.update s.calls c (some next) }
  | refuse {s : Conn κ σ ρ} {c : κ} {p : Coroutine σ ρ} (h : s.calls c = some p) :
      Step start refused s (.reply c refused)
        { s with calls := Function.update s.calls c none }
  | reply {s : Conn κ σ ρ} {c : κ} {r : ρ} (h : s.calls c = some (.done r)) :
      Step start refused s (.reply c r) { s with calls := Function.update s.calls c none }
  | abandon {s : Conn κ σ ρ} {c : κ} :
      Step start refused s (.abandon c) { s with calls := Function.update s.calls c none }
  | crash {s : Conn κ σ ρ} : Step start refused s .crash (opened s.durable)

end Conn

/-! ## The atomic store -/

/-- How far an operation is. -/
inductive Phase (ω ρ : Type*)
  | pending (op : ω)
  /-- It has happened; `kept` says that a crash would not undo it. -/
  | applied (r : ρ) (kept : Bool)

def Phase.sync : Phase ω ρ → Phase ω ρ
  | .pending op => .pending op
  | .applied r _ => .applied r true

/-- A value with operations under way. -/
structure Atomic (κ α ω ρ : Type*) where
  value : α
  durable : α
  calls : κ → Option (Phase ω ρ)

/-- What an operation does at its moment: it happens, or there is nothing to keep of it. -/
inductive Happens (does : ω → α → ρ → α → Prop) : α → Phase ω ρ → α → Phase ω ρ → Prop
  | not_yet {a : α} {ph : Phase ω ρ} : Happens does a ph a ph
  | now {a a' : α} {op : ω} {r : ρ} (h : does op a r a') :
      Happens does a (.pending op) a' (.applied r false)
  | unchanged {a : α} {op : ω} {r : ρ} (h : does op a r a) :
      Happens does a (.pending op) a (.applied r true)

namespace Atomic

def opened (value : α) : Atomic κ α ω ρ := ⟨value, value, fun _ => none⟩

variable [DecidableEq κ]

/-- An operation happens at one moment between its invocation and its reply, and is kept before
the reply. -/
inductive Step (does : ω → α → ρ → α → Prop) (refused : ρ) :
    Atomic κ α ω ρ → Label κ ω ρ → Atomic κ α ω ρ → Prop
  | invoke {a : Atomic κ α ω ρ} {c : κ} {op : ω} (h : a.calls c = none) :
      Step does refused a (.invoke c op)
        { a with calls := Function.update a.calls c (some (.pending op)) }
  | happen {a : Atomic κ α ω ρ} {c : κ} {ph ph' : Phase ω ρ} {value : α}
      (h : a.calls c = some ph) (hop : Happens does a.value ph value ph') :
      Step does refused a .internal
        { a with value, calls := Function.update a.calls c (some ph') }
  | sync {a : Atomic κ α ω ρ} :
      Step does refused a .internal
        { a with durable := a.value, calls := fun c => (a.calls c).map Phase.sync }
  | refuse {a : Atomic κ α ω ρ} {c : κ} {ph : Phase ω ρ} (h : a.calls c = some ph) :
      Step does refused a (.reply c refused) { a with calls := Function.update a.calls c none }
  | reply {a : Atomic κ α ω ρ} {c : κ} {r : ρ} (h : a.calls c = some (.applied r true)) :
      Step does refused a (.reply c r) { a with calls := Function.update a.calls c none }
  /-- An operation that changes nothing may happen as it replies. -/
  | answer {a : Atomic κ α ω ρ} {c : κ} {op : ω} {r : ρ} (h : a.calls c = some (.pending op))
      (hop : does op a.value r a.value) :
      Step does refused a (.reply c r) { a with calls := Function.update a.calls c none }
  | abandon {a : Atomic κ α ω ρ} {c : κ} :
      Step does refused a (.abandon c) { a with calls := Function.update a.calls c none }
  | crash {a : Atomic κ α ω ρ} : Step does refused a .crash (opened a.durable)

end Atomic

/-! ## Calls that are one operation -/

section Refinement

variable (view : σ → α) (Inv : σ → Prop) (does : ω → α → ρ → α → Prop)

/-- What is left of a call goes with how far its operation is, whatever the other calls do in
between: one statement is the operation, the others change nothing that is seen, and what was
written is committed before the reply. -/
inductive Tracks : Coroutine σ ρ → Phase ω ρ → Prop
  | done {r : ρ} : Tracks (.done r) (.applied r true)
  | answer {op : ω} {r : ρ} (h : ∀ s, Inv s → does op (view s) r (view s)) :
      Tracks (.done r) (.pending op)
  | exec {write : σ → σ} {next : σ → Coroutine σ ρ} {ph : Phase ω ρ} (after : σ → Phase ω ρ)
      (hinv : ∀ s, Inv s → Inv (write s))
      (hop : ∀ s, Inv s → Happens does (view s) ph (view (write s)) (after s))
      (hnext : ∀ s, Inv s → Tracks (next s) (after s)) : Tracks (.exec write next) ph
  | commit {next : Coroutine σ ρ} {ph : Phase ω ρ} (hnext : Tracks next ph.sync) :
      Tracks (.commit next) ph

variable {view Inv does}

/-- An operation that has happened does so no more. -/
theorem Happens.eq_of_applied {a a' : α} {r : ρ} {kept : Bool} {ph : Phase ω ρ}
    (h : Happens does a (.applied r kept) a' ph) : a' = a ∧ ph = .applied r kept := by
  cases h
  exact ⟨rfl, rfl⟩

/-- Another call's commit keeps what this one wrote, too. -/
theorem Tracks.sync {p : Coroutine σ ρ} {ph : Phase ω ρ} (h : Tracks view Inv does p ph) :
    Tracks view Inv does p ph.sync := by
  induction h with
  | done => exact .done
  | answer h => exact .answer h
  | commit _ ih => exact .commit ih
  | @exec write next ph after hinv hop hnext ih =>
      cases ph with
      | pending op => exact .exec after hinv hop hnext
      | applied r kept =>
          refine .exec (fun s => (after s).sync) hinv (fun s hs => ?_) ih
          obtain ⟨hview, hafter⟩ := (hop s hs).eq_of_applied
          rw [hview, hafter]
          exact .not_yet

/-- The connection goes with the atomic store. -/
structure Refines (view : σ → α) (Inv : σ → Prop) (does : ω → α → ρ → α → Prop)
    (s : Conn κ σ ρ) (a : Atomic κ α ω ρ) : Prop where
  value : a.value = view s.content
  durable : a.durable = view s.durable
  inv : Inv s.content
  inv_durable : Inv s.durable
  calls : ∀ c, Option.Rel (Tracks view Inv does) (s.calls c) (a.calls c)

theorem Refines.opened {content : σ} (h : Inv content) :
    Refines view Inv does (Conn.opened content) (Atomic.opened (view content) : Atomic κ α ω ρ) :=
  ⟨rfl, rfl, h, h, fun _ => .none⟩

variable [DecidableEq κ]

/-- Two tables of calls that go together still do after one entry of each has changed. -/
theorem rel_update {R : Coroutine σ ρ → Phase ω ρ → Prop} {calls : κ → Option (Coroutine σ ρ)}
    {calls' : κ → Option (Phase ω ρ)} (h : ∀ c, Option.Rel R (calls c) (calls' c)) {c : κ}
    {p : Option (Coroutine σ ρ)} {ph : Option (Phase ω ρ)} (hc : Option.Rel R p ph) (other : κ) :
    Option.Rel R (Function.update calls c p other) (Function.update calls' c ph other) := by
  by_cases hother : other = c
  · rw [hother, Function.update_self, Function.update_self]
    exact hc
  · rw [Function.update_of_ne hother, Function.update_of_ne hother]
    exact h other

theorem exists_of_rel {R : Coroutine σ ρ → Phase ω ρ → Prop} {o : Option (Coroutine σ ρ)}
    {o' : Option (Phase ω ρ)} (h : Option.Rel R o o') {p : Coroutine σ ρ} (ho : o = some p) :
    ∃ ph, o' = some ph ∧ R p ph := by
  subst ho
  cases h with
  | some h => exact ⟨_, rfl, h⟩

/-- **One step** of the connection is one of the atomic store. -/
theorem Refines.step {start : ω → Coroutine σ ρ} {refused : ρ}
    (hstart : ∀ op, Tracks view Inv does (start op) (.pending op)) {s s' : Conn κ σ ρ}
    {a : Atomic κ α ω ρ} {l : Label κ ω ρ} (h : Refines view Inv does s a)
    (hstep : Conn.Step start refused s l s') :
    ∃ a', Atomic.Step does refused a l a' ∧ Refines view Inv does s' a' := by
  cases hstep with
  | @invoke c op hc =>
      have hnone : a.calls c = none := by
        have hrel := h.calls c
        rw [hc] at hrel
        generalize a.calls c = o at hrel ⊢
        cases hrel
        rfl
      exact ⟨_, .invoke hnone, h.value, h.durable, h.inv, h.inv_durable,
        rel_update h.calls (.some (hstart op))⟩
  | @exec c write next hc =>
      obtain ⟨ph, hph, htracks⟩ := exists_of_rel (h.calls c) hc
      cases htracks with
      | exec after hinv hop hnext =>
          have hhappens := hop s.content h.inv
          rw [← h.value] at hhappens
          exact ⟨_, .happen hph hhappens, rfl, h.durable, hinv _ h.inv, h.inv_durable,
            rel_update h.calls (.some (hnext _ h.inv))⟩
  | @commit c next hc =>
      obtain ⟨ph, hph, htracks⟩ := exists_of_rel (h.calls c) hc
      cases htracks with
      | commit hnext =>
          -- the commit keeps what every call has written so far
          refine ⟨_, .sync, h.value, h.value, h.inv, h.inv, fun other => ?_⟩
          show Option.Rel _ (Function.update s.calls c (some next) other)
            ((a.calls other).map Phase.sync)
          by_cases hother : other = c
          · rw [hother, Function.update_self, hph]
            exact .some hnext
          · rw [Function.update_of_ne hother]
            have hrel := h.calls other
            generalize s.calls other = o, a.calls other = o' at hrel ⊢
            cases hrel with
            | none => exact .none
            | some htracks => exact .some htracks.sync
  | @refuse c p hc =>
      obtain ⟨ph, hph, -⟩ := exists_of_rel (h.calls c) hc
      exact ⟨_, .refuse hph, h.value, h.durable, h.inv, h.inv_durable,
        rel_update h.calls .none⟩
  | @reply c r hc =>
      obtain ⟨ph, hph, htracks⟩ := exists_of_rel (h.calls c) hc
      have hafter : ∀ a' : Atomic κ α ω ρ, a' = { a with calls := Function.update a.calls c none } →
          Refines view Inv does { s with calls := Function.update s.calls c none } a' := by
        rintro a' rfl
        exact ⟨h.value, h.durable, h.inv, h.inv_durable, rel_update h.calls .none⟩
      cases htracks with
      | done => exact ⟨_, .reply hph, hafter _ rfl⟩
      | answer hop =>
          -- a refusal before any statement may take its moment now
          have hnow := hop s.content h.inv
          rw [← h.value] at hnow
          exact ⟨_, .answer hph hnow, hafter _ rfl⟩
  | abandon =>
      exact ⟨_, .abandon, h.value, h.durable, h.inv, h.inv_durable, rel_update h.calls .none⟩
  | crash =>
      refine ⟨_, .crash, ?_⟩
      rw [h.durable]
      exact .opened h.inv_durable

/-- **Calls that are one operation each refine the atomic store.** Every run of the connection is
one of the atomic store, with the same invocations, replies and crashes in the same order. -/
theorem Conn.refines {start : ω → Coroutine σ ρ} {refused : ρ}
    (hstart : ∀ op, Tracks view Inv does (start op) (.pending op)) {s t : Conn κ σ ρ}
    {a : Atomic κ α ω ρ} {l : List (Label κ ω ρ)} (h : Refines view Inv does s a)
    (hrun : Run (Conn.Step start refused) s l t) :
    ∃ b, Run (Atomic.Step does refused) a l b ∧ Refines view Inv does t b := by
  obtain ⟨l', b, hrun', hsame, hb⟩ := hrun.simulate (R := Refines view Inv does) id id
    (fun s o t s' hs hst => by
      obtain ⟨a', hstep, ha'⟩ := hs.step hstart hst
      exact ⟨o, a', hstep, rfl, ha'⟩) h
  rw [List.map_id, List.map_id] at hsame
  exact ⟨b, hsame ▸ hrun', hb⟩

end Refinement

end Connection
