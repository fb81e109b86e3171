import Mathlib.Data.List.Sort
import AgentRoom.Lib.FileTree
import AgentRoom.Lib.Utf8
import AgentRoom.Py

set_option autoImplicit false

/-! # The workspace and its file endpoints

`workspace_dir` and `task_workspace` choose the directory a task's tools work in;
`GET /workspace/files` and `GET /workspace/file` show what is in it. Where an operation fails
half-way, the directories made before it are not part of the result.
-/

namespace AgentRoom

open Posix

/-- `workspace_dir`. -/
def workspaceDir (t : FileTree) (setting : String) : Except Fault (Location × FileTree) := do
  let ws ← t.resolve (Path.parse setting.toList)
  let t ← t.mkdir ws.path
  return (ws, t)

/-- `Path(task_id).name or "task"`. -/
def safeSegment (taskId : String) : List Char :=
  let name := (Path.parse taskId.toList).name
  if name = [] then "task".toList else name

/-- `task_workspace`. -/
def taskWorkspace (t : FileTree) (setting taskId : String) :
    Except Fault (Path × FileTree) := do
  let (base, t) ← workspaceDir t setting
  let ws := base.path.join (Path.parse (safeSegment taskId))
  let t ← t.mkdir ws
  return (ws, t)

/-- `base_ws`, the workspace directory as it was resolved when the application was created. -/
def baseWorkspace (t : FileTree) (setting : String) : Location :=
  (Path.parse setting.toList).resolve t.cwd

/-- `_files_root`. -/
def filesRoot (t : FileTree) (setting : String) (taskId : Option String) :
    Except Fault (Path × FileTree) :=
  match taskId with
  | some id => if id = "" then .ok ((baseWorkspace t setting).path, t) else taskWorkspace t setting id
  | none => .ok ((baseWorkspace t setting).path, t)

/-- `str(path)`. -/
def pathText (l : Location) : String := String.ofList l.path.text

/-- `resolve_within_root`. -/
def resolveWithinRoot (t : FileTree) (root : Path) (relative : String) : Except Fault Location := do
  let rootResolved ← t.resolve root
  if (← t.stat rootResolved) = none then
    throw (.valueError ("fs_root does not exist: " ++ pathText rootResolved))
  let candidate := Path.parse relative.toList
  let target ← t.resolve
    (if candidate.absolute then candidate else rootResolved.path.join candidate)
  if ¬ rootResolved <+: target then
    throw (.valueError ("path " ++ Py.repr relative ++ " escapes root " ++ pathText rootResolved ++
      " (resolved: " ++ pathText target ++ ")"))
  return target

/-! ## `GET /workspace/files` -/

structure WorkspaceFile where
  path : String
  size : Nat
  deriving DecidableEq

/-- `_WORKSPACE_SKIP_DIRS`. -/
def workspaceSkipDirs : List (List Char) :=
  ["__pycache__".toList, ".git".toList, "node_modules".toList]

/-- Whether one of the parts below the root hides a file. -/
def skipped (rel : List Name) : Bool :=
  rel.any fun part => decide (part.1 ∈ workspaceSkipDirs) || part.1.head? == some '.'

/-- The order of `Path` objects: their parts, as texts. -/
def pathLe (p q : Location) : Prop :=
  ¬ List.Lex (List.Lex (fun a b : Char => a.toNat < b.toNat)) (q.map Subtype.val)
    (p.map Subtype.val)

instance : DecidableRel pathLe := fun _ _ => inferInstanceAs (Decidable (¬ _))

/-- The files among some locations below `root` that the listing keeps. -/
def listed (t : FileTree) (root : Location) :
    List Location → Except Fault (List (Location × List UInt8))
  | [] => .ok []
  | p :: rest => do
      match ← t.stat p with
      | some (.file bytes) =>
          let files ← listed t root rest
          return if skipped (p.drop root.length) then files else (p, bytes) :: files
      | _ => listed t root rest

/-- The files that `GET /workspace/files` lists. -/
def listedFiles (t : FileTree) (setting : String) (taskId : Option String) :
    Except Fault (Location × List (Location × List UInt8)) := do
  let (root, t) ← filesRoot t setting taskId
  let here := root.resolve t.cwd
  let files ← listed t here ((t.rglob here).insertionSort pathLe)
  return (here, files)

/-- `list_workspace_files`. -/
def listWorkspaceFiles (t : FileTree) (setting : String) (taskId : Option String) :
    Except Fault (List WorkspaceFile) := do
  let (root, files) ← listedFiles t setting taskId
  return files.map fun f =>
    { path := String.ofList (Path.text ⟨false, (f.1.drop root.length).map .into⟩),
      size := f.2.length }

/-! ## `GET /workspace/file` -/

/-- Why a file is not shown. -/
inductive FileFailure
  | http (status : Nat) (detail : String)
  | uncaught (fault : Fault)
  deriving DecidableEq

structure WorkspaceFileContent where
  path : String
  content : String
  truncated : Bool
  binary : Bool
  deriving DecidableEq

/-- `_WORKSPACE_MAX_BYTES`. -/
def workspaceMaxBytes : Nat := 256 * 1024

/-- The response for a file of some bytes. -/
def fileContent (path : String) (raw : List UInt8) : WorkspaceFileContent :=
  let truncated := decide (raw.length > workspaceMaxBytes)
  match Utf8.decodeStrict (raw.take workspaceMaxBytes) with
  | some text => { path, content := String.ofList text, truncated, binary := false }
  | none => { path, content := "", truncated, binary := true }

/-- A text that is shown is the one the file starts with. -/
theorem encode_fileContent {path : String} {raw : List UInt8}
    (h : (fileContent path raw).binary = false) :
    Utf8.encode (fileContent path raw).content.toList = raw.take workspaceMaxBytes := by
  unfold fileContent at *
  dsimp only at *
  cases hdecode : Utf8.decodeStrict (raw.take workspaceMaxBytes) with
  | none =>
      rw [hdecode] at h
      cases h
  | some text =>
      rw [String.toList_ofList]
      exact Utf8.decodeStrict_eq_some_iff.mp hdecode

/-- The file that `GET /workspace/file` reads. -/
def openWorkspaceFile (t : FileTree) (setting : String) (taskId : Option String) (path : String) :
    Except FileFailure (Location × List UInt8) :=
  let target : Except Fault (Location × FileTree) := do
    let (root, t) ← filesRoot t setting taskId
    let target ← resolveWithinRoot t root path
    return (target, t)
  match target with
  | .error (.valueError text) => .error (.http 400 text)
  | .error fault => .error (.uncaught fault)
  | .ok (target, t) =>
      match t.stat target with
      | .error fault => .error (.uncaught fault)
      | .ok (some (.file raw)) =>
          if t.refuses .read target then .error (.uncaught (.osError .read target))
          else .ok (target, raw)
      | .ok _ => .error (.http 404 "file not found")

/-- `read_workspace_file`. -/
def readWorkspaceFile (t : FileTree) (setting : String) (taskId : Option String) (path : String) :
    Except FileFailure WorkspaceFileContent := do
  let (_, raw) ← openWorkspaceFile t setting taskId path
  return fileContent path raw

end AgentRoom
