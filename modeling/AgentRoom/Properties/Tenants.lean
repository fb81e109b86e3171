import AgentRoom.Properties.Confinement
import AgentRoom.Server.Tenancy

set_option autoImplicit false

/-! # Which tenants share a database

A tenant id is reduced to levels climbed and names (`normalForm`). It stays below the tenants'
directory when what it climbs it comes back to, and then the names that are left over decide
which database is opened.
-/

namespace AgentRoom

open Posix

/-- The names after a prefix. -/
def namesAfter (front l : Location) : Option Location :=
  if front <+: l then some (l.drop front.length) else none

theorem namesAfter_eq_some_iff {front l k : Location} :
    namesAfter front l = some k ↔ l = front ++ k := by
  unfold namesAfter
  constructor
  · intro h
    split at h
    · rename_i hfront
      cases h
      exact (List.prefix_iff_eq_append.mp hfront).symm
    · cases h
  · rintro rfl
    simp

/-- What is left of a tenant id below the tenants' directory: an absolute id has to start with
the names of the directory, a relative one that climbs has to go back through those it left. -/
def tenantKey (tenants : Location) (id : Path) : Option Location :=
  let reduced := normalForm id.steps
  if id.absolute then namesAfter tenants reduced.2
  else namesAfter (tenants.drop (tenants.length - reduced.1)) reduced.2

theorem tenantKey_eq_some_iff {tenants : Location} {id : Path} {k : Location} :
    tenantKey tenants id = some k ↔ id.resolve tenants = tenants ++ k := by
  unfold tenantKey Path.resolve
  rw [foldl_enter]
  split
  · rw [namesAfter_eq_some_iff, List.take_nil, List.nil_append]
  · rw [namesAfter_eq_some_iff]
    -- the names that the id keeps, and those it climbs out of
    have hsplit : tenants ++ k = tenants.take (tenants.length - (normalForm id.steps).1) ++
        (tenants.drop (tenants.length - (normalForm id.steps).1) ++ k) := by
      rw [← List.append_assoc, List.take_append_drop]
    rw [hsplit, List.append_right_inj]

/-! ## Below the tenants' directory -/

/-- A file below a directory. -/
def StrictlyBelow (dir l : Location) : Prop := dir <+: l ∧ l ≠ dir

theorem strictlyBelow_concat_iff {dir l : Location} {n : Name} :
    StrictlyBelow dir (l ++ [n]) ↔ ∃ k, l = dir ++ k := by
  unfold StrictlyBelow
  constructor
  · rintro ⟨hfront, hne⟩
    rcases List.prefix_concat_iff.mp hfront with heq | hfront
    · exact absurd heq.symm hne
    · obtain ⟨k, hk⟩ := hfront
      exact ⟨k, hk.symm⟩
  · rintro ⟨k, rfl⟩
    refine ⟨⟨k ++ [n], by simp⟩, ?_⟩
    intro heq
    have hlen := congrArg List.length heq
    simp only [List.length_append, List.length_singleton] at hlen
    omega

section Pair

variable {t t' : FileTree} {basePath id path : String}

/-- A tenant's file is below the tenants' directory when its id has a key. -/
theorem strictlyBelow_iff (h : dbPathFor t basePath id = .ok (path, t'))
    (hid : id ≠ defaultTenantId) :
    StrictlyBelow (tenantsDir t.cwd basePath) (normalise t.cwd path) ↔
      (tenantKey (tenantsDir t.cwd basePath) (Path.parse id.toList)).isSome := by
  rw [dbPathFor_spec h hid, strictlyBelow_concat_iff, Option.isSome_iff_exists]
  exact exists_congr fun k => tenantKey_eq_some_iff.symm

/-- The server's own database is not below the tenants' directory. -/
theorem not_strictlyBelow_base (cwd : Location) (basePath : String) :
    ¬ StrictlyBelow (tenantsDir cwd basePath) (normalise cwd basePath) := by
  rintro ⟨hfront, hne⟩
  have hlen := hfront.length_le
  rw [tenantsDir, List.length_append, List.length_dropLast, List.length_singleton] at hlen
  have heq := hfront.eq_of_length (by
    rw [tenantsDir, List.length_append, List.length_dropLast, List.length_singleton]
    omega)
  exact hne heq.symm

theorem path_of_default (h : dbPathFor t basePath defaultTenantId = .ok (path, t')) :
    path = basePath := by
  rw [dbPathFor_default] at h
  cases h
  rfl

end Pair

/-- **Distinct tenants get distinct databases**, below the tenants' directory but for the
default one, exactly when every id other than `default` has a key and no two ids have the same
one. -/
theorem tenants_separate_iff {t t₁ t₂ t' : FileTree} (hcwd : t'.cwd = t.cwd)
    {basePath id₁ id₂ path₁ path₂ : String} (hne : id₁ ≠ id₂)
    (h₁ : dbPathFor t basePath id₁ = .ok (path₁, t₁))
    (h₂ : dbPathFor t' basePath id₂ = .ok (path₂, t₂)) :
    (normalise t.cwd path₁ ≠ normalise t.cwd path₂ ∧
        (id₁ ≠ defaultTenantId →
          StrictlyBelow (tenantsDir t.cwd basePath) (normalise t.cwd path₁)) ∧
        (id₂ ≠ defaultTenantId →
          StrictlyBelow (tenantsDir t.cwd basePath) (normalise t.cwd path₂))) ↔
      (id₁ ≠ defaultTenantId →
          (tenantKey (tenantsDir t.cwd basePath) (Path.parse id₁.toList)).isSome) ∧
        (id₂ ≠ defaultTenantId →
          (tenantKey (tenantsDir t.cwd basePath) (Path.parse id₂.toList)).isSome) ∧
        (id₁ ≠ defaultTenantId → id₂ ≠ defaultTenantId →
          tenantKey (tenantsDir t.cwd basePath) (Path.parse id₁.toList) ≠
            tenantKey (tenantsDir t.cwd basePath) (Path.parse id₂.toList)) := by
  have hbelow₁ : id₁ ≠ defaultTenantId → _ := strictlyBelow_iff h₁
  have hbelow₂ : id₂ ≠ defaultTenantId → _ := strictlyBelow_iff h₂
  have hfile₁ : id₁ ≠ defaultTenantId → _ := dbPathFor_spec h₁
  have hfile₂ : id₂ ≠ defaultTenantId → _ := dbPathFor_spec h₂
  rw [hcwd] at hbelow₂ hfile₂
  constructor
  · rintro ⟨hdiffer, hin₁, hin₂⟩
    refine ⟨fun hid => (hbelow₁ hid).mp (hin₁ hid), fun hid => (hbelow₂ hid).mp (hin₂ hid), ?_⟩
    intro hid₁ hid₂ hkeys
    obtain ⟨k, hk⟩ := Option.isSome_iff_exists.mp ((hbelow₁ hid₁).mp (hin₁ hid₁))
    have hk₂ := hkeys ▸ hk
    apply hdiffer
    calc normalise t.cwd path₁
        = (Path.parse id₁.toList).resolve (tenantsDir t.cwd basePath) ++ [dbName] := hfile₁ hid₁
      _ = (tenantsDir t.cwd basePath ++ k) ++ [dbName] := by rw [tenantKey_eq_some_iff.mp hk]
      _ = (Path.parse id₂.toList).resolve (tenantsDir t.cwd basePath) ++ [dbName] := by
          rw [tenantKey_eq_some_iff.mp hk₂]
      _ = normalise t.cwd path₂ := (hfile₂ hid₂).symm
  · rintro ⟨hkey₁, hkey₂, hkeys⟩
    refine ⟨?_, fun hid => (hbelow₁ hid).mpr (hkey₁ hid), fun hid => (hbelow₂ hid).mpr (hkey₂ hid)⟩
    intro heq
    by_cases hid₁ : id₁ = defaultTenantId
    · -- The default tenant's file is above the other one's directory.
      subst hid₁
      have hin₂ := (hbelow₂ hne.symm).mpr (hkey₂ hne.symm)
      rw [← heq, path_of_default h₁] at hin₂
      exact not_strictlyBelow_base _ _ hin₂
    · by_cases hid₂ : id₂ = defaultTenantId
      · subst hid₂
        have hin₁ := (hbelow₁ hid₁).mpr (hkey₁ hid₁)
        rw [heq, path_of_default h₂] at hin₁
        exact not_strictlyBelow_base _ _ hin₁
      · obtain ⟨k₁, hk₁⟩ := Option.isSome_iff_exists.mp (hkey₁ hid₁)
        obtain ⟨k₂, hk₂⟩ := Option.isSome_iff_exists.mp (hkey₂ hid₂)
        rw [hfile₁ hid₁, hfile₂ hid₂, tenantKey_eq_some_iff.mp hk₁, tenantKey_eq_some_iff.mp hk₂,
          List.append_left_inj, List.append_right_inj] at heq
        apply hkeys hid₁ hid₂
        rw [hk₁, hk₂, heq]

/-- Two well-behaved ids. -/
theorem tenants_separate_names :
    normalise srvTree.cwd "/srv/tenants/acme/agent_room.db" ≠
        normalise srvTree.cwd "/srv/tenants/umbra/agent_room.db" ∧
      ("acme" ≠ defaultTenantId → StrictlyBelow (tenantsDir srvTree.cwd "agent_room.db")
        (normalise srvTree.cwd "/srv/tenants/acme/agent_room.db")) ∧
      ("umbra" ≠ defaultTenantId → StrictlyBelow (tenantsDir srvTree.cwd "agent_room.db")
        (normalise srvTree.cwd "/srv/tenants/umbra/agent_room.db")) := by
  refine (@tenants_separate_iff srvTree _ _ srvTree rfl "agent_room.db" "acme" "umbra" _ _
    (by decide) (by rfl) (by rfl)).mpr ?_
  decide

/-- The id `..` opens the default tenant's database. -/
theorem default_database_shared :
    (dbPathFor srvTree "agent_room.db" defaultTenantId).map Prod.fst = .ok "agent_room.db" ∧
      (dbPathFor srvTree "agent_room.db" "..").map Prod.fst =
        .ok "/srv/tenants/../agent_room.db" ∧
      normalise srvTree.cwd "/srv/tenants/../agent_room.db" =
        normalise srvTree.cwd "agent_room.db" ∧
      ¬ StrictlyBelow (tenantsDir srvTree.cwd "agent_room.db")
        (normalise srvTree.cwd "/srv/tenants/../agent_room.db") := by
  refine ⟨by rfl, by rfl, by decide, ?_⟩
  rintro ⟨hfront, -⟩
  revert hfront
  decide

end AgentRoom
