import AgentRoom.Lib.Fallible
import AgentRoom.Lib.FileTree

set_option autoImplicit false

/-! # One database for each tenant

`TenantCheckpointerPool.db_path_for` splices the tenant id into a path below the directory of
the server's own database.
-/

namespace AgentRoom

open Posix

/-- `DEFAULT_TENANT_ID`. -/
def defaultTenantId : String := "default"

/-- `TenantCheckpointerPool.db_path_for`, with the server's `base_db_path`. -/
def dbPathFor (t : FileTree) (basePath tenantId : String) : Except Fault (String × FileTree) :=
  if tenantId = defaultTenantId then .ok (basePath, t)
  else do
    let resolved ← t.resolve (Path.parse basePath.toList)
    let baseDir := Location.path resolved.dropLast
    let tenantDir := (baseDir.join (Path.parse "tenants".toList)).join (Path.parse tenantId.toList)
    let t ← t.mkdir tenantDir
    return (String.ofList (tenantDir.join (Path.parse "agent_room.db".toList)).text, t)

/-- The file that a path names. -/
def normalise (cwd : Location) (path : String) : Location :=
  (Path.parse path.toList).resolve cwd

def tenantsName : Name := ⟨"tenants".toList, by decide⟩
def dbName : Name := ⟨"agent_room.db".toList, by decide⟩

/-- `<dir of base_db_path>/tenants`. -/
def tenantsDir (cwd : Location) (basePath : String) : Location :=
  (normalise cwd basePath).dropLast ++ [tenantsName]

/-- The file of a tenant other than the default one lies where its id leads from the tenants'
directory. -/
theorem dbPathFor_spec {t t' : FileTree} {basePath tenantId path : String}
    (h : dbPathFor t basePath tenantId = .ok (path, t')) (hid : tenantId ≠ defaultTenantId) :
    normalise t.cwd path =
      (Path.parse tenantId.toList).resolve (tenantsDir t.cwd basePath) ++ [dbName] := by
  unfold dbPathFor at h
  rw [if_neg hid] at h
  obtain ⟨resolved, hresolved, h⟩ := Fallible.bind_eq_ok h
  obtain ⟨t'', -, h⟩ := Fallible.bind_eq_ok h
  cases h
  have hbase : resolved = normalise t.cwd basePath := FileTree.resolve_eq_ok hresolved
  subst hbase
  have htenants : Path.parse "tenants".toList = ⟨false, [.into tenantsName]⟩ := by decide
  have hdb : Path.parse "agent_room.db".toList = ⟨false, [.into dbName]⟩ := by decide
  rw [normalise, String.toList_ofList, Path.parse_text, htenants, hdb]
  rw [Path.resolve_join, Path.resolve_join, Path.resolve_join, Location.resolve_path]
  rfl

theorem dbPathFor_default (t : FileTree) (basePath : String) :
    dbPathFor t basePath defaultTenantId = .ok (basePath, t) := if_pos rfl

end AgentRoom
