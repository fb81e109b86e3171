import AgentRoom.Lib.Fallible
import AgentRoom.Server.Workspace

set_option autoImplicit false

/-! # What the file endpoints can reach

The id of a task chooses the directory that the containment check is relative to. It leads one
step from the workspace (`segment`): into a name, or up, when the id ends in `..`; the
endpoints stay in the workspace in the first case only.
-/

namespace AgentRoom

open Posix

/-! ## The directory of a task -/

/-- The step that a task id takes from the workspace. -/
def segment (taskId : String) : Step :=
  (Path.parse taskId.toList).steps.getLast?.getD (.into ⟨"task".toList, by decide⟩)

theorem parse_safeSegment (taskId : String) :
    Path.parse (safeSegment taskId) = ⟨false, [segment taskId]⟩ := by
  unfold safeSegment segment
  cases hlast : (Path.parse taskId.toList).steps.getLast? with
  | none =>
      have hname : (Path.parse taskId.toList).name = [] := by
        rw [Path.name, hlast]
        rfl
      rw [hname]
      decide
  | some s =>
      have hname : (Path.parse taskId.toList).name = s.text := by
        rw [Path.name, hlast]
        rfl
      have hne : (Path.parse taskId.toList).name ≠ [] := by
        rw [hname]
        exact s.text_ne_nil
      dsimp only
      rw [if_neg hne, Path.parse_name, hlast]
      rfl

theorem segment_eq_up_iff (taskId : String) :
    segment taskId = .up ↔ (Path.parse taskId.toList).name = ['.', '.'] := by
  unfold segment Path.name
  cases (Path.parse taskId.toList).steps.getLast? with
  | none => simp
  | some s =>
      cases s with
      | up => simp [Step.text]
      | into n =>
          have hne : n.1 ≠ ['.', '.'] := n.2.2.2.1
          simp [Step.text, hne]

theorem workspaceDir_spec {t t' : FileTree} {setting : String} {ws : Location}
    (h : workspaceDir t setting = .ok (ws, t')) :
    ws = baseWorkspace t setting ∧ t.mkdir ws.path = .ok t' := by
  unfold workspaceDir at h
  obtain ⟨ws', hresolve, h⟩ := Fallible.bind_eq_ok h
  obtain ⟨t'', hmkdir, h⟩ := Fallible.bind_eq_ok h
  cases h
  exact ⟨FileTree.resolve_eq_ok hresolve, hmkdir⟩

/-- Where the directory of a task is. -/
theorem taskWorkspace_spec {t t' : FileTree} {setting taskId : String} {p : Path}
    (h : taskWorkspace t setting taskId = .ok (p, t')) :
    t'.cwd = t.cwd ∧ p.resolve t.cwd = enter (baseWorkspace t setting) (segment taskId) := by
  unfold taskWorkspace at h
  obtain ⟨⟨ws, t''⟩, hws, h⟩ := Fallible.bind_eq_ok h
  obtain ⟨made, hmkdir, h⟩ := Fallible.bind_eq_ok h
  cases h
  obtain ⟨hbase, hbasedir⟩ := workspaceDir_spec hws
  have hcwd := (FileTree.mkdir_spec hbasedir).2.1.cwd
  have hcwd' := (FileTree.mkdir_spec hmkdir).2.1.cwd
  refine ⟨hcwd'.trans hcwd, ?_⟩
  rw [parse_safeSegment, Path.resolve_join, Location.resolve_path, ← hbase]
  rfl

/-- Once the workspace is there, the step up from it leads to a directory. -/
theorem taskWorkspace_up {t t' : FileTree} {setting taskId : String} {ws : Location}
    (hws : workspaceDir t setting = .ok (ws, t')) (hup : segment taskId = .up) :
    taskWorkspace t setting taskId = .ok (ws.path.join ⟨false, [.up]⟩, t') := by
  obtain ⟨-, hmkdir⟩ := workspaceDir_spec hws
  obtain ⟨hnul, -, hmem⟩ := FileTree.mkdir_spec hmkdir
  rw [Location.resolve_path] at hmem
  have hnul' : (ws.path.join ⟨false, [.up]⟩).hasNul = false := by
    unfold Path.hasNul Path.join at *
    simp only [Bool.false_eq_true, if_false, List.any_append, hnul]
    decide
  have hagain : t'.mkdir (ws.path.join ⟨false, [.up]⟩) = .ok t' := by
    unfold FileTree.mkdir
    rw [hnul']
    exact @FileTree.mkdirs_append _ [.up] _ _ t'.root_mem (by simpa using hmem)
  unfold taskWorkspace
  rw [Fallible.ok_bind hws, parse_safeSegment, hup]
  exact Fallible.ok_bind hagain

/-- Where the endpoints look. -/
def rootLocation (base : Location) : Option String → Location
  | some id => if id = "" then base else enter base (segment id)
  | none => base

theorem filesRoot_spec {t t' : FileTree} {setting : String} {taskId : Option String} {root : Path}
    (h : filesRoot t setting taskId = .ok (root, t')) :
    t'.cwd = t.cwd ∧ root.resolve t.cwd = rootLocation (baseWorkspace t setting) taskId := by
  unfold filesRoot rootLocation at *
  cases taskId with
  | none =>
      cases h
      exact ⟨rfl, Location.resolve_path _ _⟩
  | some id =>
      dsimp only at h ⊢
      split
      · rename_i hempty
        rw [if_pos hempty] at h
        cases h
        exact ⟨rfl, Location.resolve_path _ _⟩
      · rename_i hempty
        rw [if_neg hempty] at h
        exact taskWorkspace_spec h

/-- The workspace contains the root, unless the task id leads up. -/
theorem prefix_rootLocation {base : Location} {taskId : Option String}
    (h : ∀ id, taskId = some id → segment id ≠ .up) : base <+: rootLocation base taskId := by
  unfold rootLocation
  cases taskId with
  | none => exact List.prefix_refl _
  | some id =>
      dsimp only
      split
      · exact List.prefix_refl _
      · cases hsegment : segment id with
        | up => exact absurd hsegment (h id rfl)
        | into n => exact List.prefix_append base [n]

/-! ## What is under the root -/

theorem prefix_of_resolveWithinRoot {t : FileTree} {root : Path} {relative : String}
    {target : Location} (h : resolveWithinRoot t root relative = .ok target) :
    root.resolve t.cwd <+: target := by
  unfold resolveWithinRoot at h
  obtain ⟨rootResolved, hroot, h⟩ := Fallible.bind_eq_ok h
  obtain ⟨entry, -, h⟩ := Fallible.bind_eq_ok h
  rw [← FileTree.resolve_eq_ok hroot]
  split at h
  · cases h
  · obtain ⟨target', -, h⟩ := Fallible.bind_eq_ok h
    split at h
    · cases h
    · rename_i hfront
      cases h
      exact not_not.mp hfront

theorem prefix_of_openWorkspaceFile {t : FileTree} {setting : String} {taskId : Option String}
    {path : String} {target : Location} {raw : List UInt8}
    (h : openWorkspaceFile t setting taskId path = .ok (target, raw)) :
    rootLocation (baseWorkspace t setting) taskId <+: target := by
  unfold openWorkspaceFile at h
  dsimp only at h
  split at h
  · cases h
  · cases h
  · rename_i target' t' hrun
    have htarget : target' = target := by
      split at h
      · cases h
      · split at h
        · cases h
        · cases h
          rfl
      · cases h
    subst htarget
    obtain ⟨⟨root, t''⟩, hroot, hrun⟩ := Fallible.bind_eq_ok hrun
    obtain ⟨target'', hresolve, hrun⟩ := Fallible.bind_eq_ok hrun
    cases hrun
    obtain ⟨hcwd, hlocation⟩ := filesRoot_spec hroot
    rw [← hlocation, ← hcwd]
    exact prefix_of_resolveWithinRoot hresolve

theorem mem_of_mem_listed {t : FileTree} {root : Location} {ps : List Location}
    {files : List (Location × List UInt8)} (h : listed t root ps = .ok files)
    {f : Location × List UInt8} (hf : f ∈ files) : f.1 ∈ ps := by
  induction ps generalizing files with
  | nil =>
      cases h
      cases hf
  | cons p rest ih =>
      unfold listed at h
      obtain ⟨entry, -, h⟩ := Fallible.bind_eq_ok h
      split at h
      · obtain ⟨files', hrest, h⟩ := Fallible.bind_eq_ok h
        cases h
        split at hf
        · exact List.mem_cons_of_mem _ (ih hrest hf)
        · rcases List.mem_cons.mp hf with rfl | hf
          · exact List.mem_cons_self
          · exact List.mem_cons_of_mem _ (ih hrest hf)
      · exact List.mem_cons_of_mem _ (ih h hf)

theorem prefix_of_listedFiles {t : FileTree} {setting : String} {taskId : Option String}
    {here : Location} {files : List (Location × List UInt8)}
    (h : listedFiles t setting taskId = .ok (here, files)) {f : Location × List UInt8}
    (hf : f ∈ files) : rootLocation (baseWorkspace t setting) taskId <+: f.1 := by
  unfold listedFiles at h
  obtain ⟨⟨root, t'⟩, hroot, h⟩ := Fallible.bind_eq_ok h
  obtain ⟨files', hlisted, h⟩ := Fallible.bind_eq_ok h
  cases h
  obtain ⟨hcwd, hlocation⟩ := filesRoot_spec hroot
  have hmem := mem_of_mem_listed hlisted hf
  rw [List.mem_insertionSort, hcwd, hlocation] at hmem
  exact FileTree.prefix_of_mem_rglob hmem

/-! ## Confinement -/

/-- A directory or file directly in a directory. -/
def DirectChild (ws l : Location) : Prop := ∃ n : Name, l = ws ++ [n]

theorem directChild_enter_iff (ws : Location) (s : Step) :
    DirectChild ws (enter ws s) ↔ s ≠ .up := by
  constructor
  · rintro ⟨n, hn⟩ rfl
    have hlen := congrArg List.length hn
    rw [enter, List.length_dropLast, List.length_append, List.length_singleton] at hlen
    omega
  · intro hs
    cases s with
    | up => exact absurd rfl hs
    | into n => exact ⟨n, rfl⟩

/-- **The file endpoints stay in the workspace**, and a task has a directory of its own in it,
exactly when the last component of the task id is not `..`. -/
theorem files_confined_iff {t t' : FileTree} {setting : String} {ws : Location}
    (hws : workspaceDir t setting = .ok (ws, t')) (taskId : Option String) (path : String) :
    ((∀ target raw, openWorkspaceFile t setting taskId path = .ok (target, raw) → ws <+: target) ∧
      (∀ root files, listedFiles t setting taskId = .ok (root, files) →
        ∀ f ∈ files, ws <+: f.1) ∧
      ∀ id, taskId = some id → id ≠ "" → ∀ p t'', taskWorkspace t setting id = .ok (p, t'') →
        DirectChild ws (p.resolve t.cwd)) ↔
      ∀ id, taskId = some id → (Path.parse id.toList).name ≠ "..".toList := by
  obtain ⟨hbase, -⟩ := workspaceDir_spec hws
  constructor
  · rintro ⟨-, -, hchild⟩ id hid hname
    have hne : id ≠ "" := by
      rintro rfl
      revert hname
      decide
    have hup : segment id = .up := (segment_eq_up_iff id).mpr hname
    have hrun := taskWorkspace_up hws hup
    have hdirect := hchild id hid hne _ _ hrun
    rw [(taskWorkspace_spec hrun).2, ← hbase] at hdirect
    exact (directChild_enter_iff ws _).mp hdirect hup
  · intro hname
    have hsegment : ∀ id, taskId = some id → segment id ≠ .up := by
      intro id hid hup
      exact hname id hid ((segment_eq_up_iff id).mp hup)
    have hroot : ws <+: rootLocation (baseWorkspace t setting) taskId := by
      rw [← hbase]
      exact prefix_rootLocation hsegment
    refine ⟨?_, ?_, ?_⟩
    · intro target raw hopen
      exact hroot.trans (prefix_of_openWorkspaceFile hopen)
    · intro root files hlisted f hf
      exact hroot.trans (prefix_of_listedFiles hlisted hf)
    · intro id hid _ p t'' hrun
      rw [(taskWorkspace_spec hrun).2, ← hbase]
      exact (directChild_enter_iff ws _).mpr (hsegment id hid)

/-! ## A server in `/srv` -/

def srv : Name := ⟨"srv".toList, by decide⟩
def workspace : Name := ⟨"workspace".toList, by decide⟩
def firstTask : Name := ⟨"t1".toList, by decide⟩
def notes : Name := ⟨"notes.txt".toList, by decide⟩

theorem isName_database : IsName "agent_room.db".toList := by decide

def database : Name := ⟨"agent_room.db".toList, isName_database⟩

/-- A task has written a file; the database lies beside the workspace. -/
def srvTree : FileTree where
  directories := [[], [srv], [srv, workspace], [srv, workspace, firstTask]]
  files := [([srv, workspace, firstTask, notes], [104, 105]), ([srv, database], [83, 81, 76])]
  cwd := [srv]
  refuses := fun _ _ => false
  root_mem := by decide
  cwd_mem := by decide
  parent_mem := by decide
  placed := by decide
  disjoint := by decide

theorem files_confined_notes :
    openWorkspaceFile srvTree "workspace" (some "t1") "notes.txt" =
        .ok ([srv, workspace, firstTask, notes], [104, 105]) ∧
      (∀ target raw, openWorkspaceFile srvTree "workspace" (some "t1") "notes.txt" =
        .ok (target, raw) → [srv, workspace] <+: target) ∧
      (∀ root files, listedFiles srvTree "workspace" (some "t1") = .ok (root, files) →
        ∀ f ∈ files, [srv, workspace] <+: f.1) ∧
      ∀ id, some "t1" = some id → id ≠ "" → ∀ p t'', taskWorkspace srvTree "workspace" id =
        .ok (p, t'') → DirectChild [srv, workspace] (p.resolve srvTree.cwd) := by
  refine ⟨by rfl, (@files_confined_iff srvTree srvTree "workspace" [srv, workspace] (by rfl)
    (some "t1") "notes.txt").mpr ?_⟩
  rintro id hid
  cases hid
  decide

/-- With the task id `..` the database is read. -/
theorem database_read :
    workspaceDir srvTree "workspace" = .ok ([srv, workspace], srvTree) ∧
      openWorkspaceFile srvTree "workspace" (some "..") "agent_room.db" =
        .ok ([srv, database], [83, 81, 76]) ∧
      readWorkspaceFile srvTree "workspace" (some "..") "agent_room.db" =
        .ok { path := "agent_room.db", content := "SQL", truncated := false, binary := false } ∧
      ¬ [srv, workspace] <+: [srv, database] := by
  refine ⟨by rfl, by rfl, by rfl, by decide⟩

end AgentRoom
