import AgentRoom.Lib.Runs
import AgentRoom.Server.Tenancy
import Mathlib.Logic.Function.Basic

set_option autoImplicit false

/-! # Opening the store of a tenant

`TenantCheckpointerPool.get` looks for the entry of a tenant, takes the lock, looks again and
opens the tenant's store. Any number of calls are under way at once; a call is suspended while it
waits for the lock and while its store opens. An entry is named after the call of
`open_checkpointer` that it came from.
-/

namespace AgentRoom

/-- `TenantEntry`: the compiler and the memory of one opened store. -/
structure TenantEntry where
  opened : Nat
  deriving DecidableEq, Repr

/-- Where a call of `get` stands. -/
inductive GetPhase
  /-- About to look for an entry. -/
  | entered
  /-- In `async with self._lock`. -/
  | waiting
  /-- Holding the lock, about to look again. -/
  | holding
  /-- Between `db_path_for` and the end of `enter_async_context`. -/
  | opening (n : Nat)
  | returned (entry : TenantEntry)
  | raised
  deriving DecidableEq, Repr

/-- `TenantCheckpointerPool`, with the calls of `get` and their tenants. -/
structure TenantPool where
  entries : String → Option TenantEntry := fun _ => none
  lock : Option Nat := none
  /-- How often a store was about to be opened. -/
  opens : Nat := 0
  calls : Nat → Option (String × GetPhase) := fun _ => none

namespace TenantPool

/-- A call goes on. -/
def goto (p : TenantPool) (i : Nat) (tenantId : String) (phase : GetPhase) : TenantPool :=
  { p with calls := Function.update p.calls i (some (tenantId, phase)) }

inductive Action
  | call (i : Nat) (tenantId : String)
  | cached (i : Nat)
  | queue (i : Nat)
  | acquire (i : Nat)
  | recheck (i : Nat)
  | openCheckpointer (i : Nat) (tenantId : String)
  | opened (i : Nat) (tenantId : String)
  | openFails (i : Nat) (tenantId : String)
  deriving DecidableEq, Repr

/-- One step of one call. A store that does not open, or whose path or bindings cannot be made,
is a failed open. The lock goes to any of the waiting calls. -/
inductive Step : TenantPool → Action → TenantPool → Prop
  | call {p : TenantPool} {i : Nat} (tenantId : String) : p.calls i = none →
      Step p (.call i tenantId) (p.goto i tenantId .entered)
  | cached {p : TenantPool} {i : Nat} {tenantId : String} {entry : TenantEntry} :
      p.calls i = some (tenantId, .entered) → p.entries tenantId = some entry →
      Step p (.cached i) (p.goto i tenantId (.returned entry))
  | queue {p : TenantPool} {i : Nat} {tenantId : String} :
      p.calls i = some (tenantId, .entered) → p.entries tenantId = none →
      Step p (.queue i) (p.goto i tenantId .waiting)
  | acquire {p : TenantPool} {i : Nat} {tenantId : String} :
      p.calls i = some (tenantId, .waiting) → p.lock = none →
      Step p (.acquire i) { p.goto i tenantId .holding with lock := some i }
  -- the race to open it was lost
  | recheck {p : TenantPool} {i : Nat} {tenantId : String} {entry : TenantEntry} :
      p.calls i = some (tenantId, .holding) → p.entries tenantId = some entry →
      Step p (.recheck i) { p.goto i tenantId (.returned entry) with lock := none }
  | openCheckpointer {p : TenantPool} {i : Nat} {tenantId : String} :
      p.calls i = some (tenantId, .holding) → p.entries tenantId = none →
      Step p (.openCheckpointer i tenantId)
        { p.goto i tenantId (.opening p.opens) with opens := p.opens + 1 }
  | opened {p : TenantPool} {i n : Nat} {tenantId : String} :
      p.calls i = some (tenantId, .opening n) →
      Step p (.opened i tenantId)
        { p.goto i tenantId (.returned ⟨n⟩) with
          entries := Function.update p.entries tenantId (some ⟨n⟩)
          lock := none }
  | openFails {p : TenantPool} {i n : Nat} {tenantId : String} :
      p.calls i = some (tenantId, .opening n) →
      Step p (.openFails i tenantId) { p.goto i tenantId .raised with lock := none }

end TenantPool

end AgentRoom
