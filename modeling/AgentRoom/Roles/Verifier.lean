import AgentRoom.Roles.Goal
import AgentRoom.PyStr
import AgentRoom.Lib.LinkTree

set_option autoImplicit false

/-! # The verifier and the files it re-seeds

Before the command of a task runs, the verifier writes the task's `verify_files` into the
workspace anew. The workspace is what the developer left there, links included, and the file
system is that of `LinkTree`; the map is any mapping of Python texts. What cannot be written
raises, and nothing catches it.
-/

namespace AgentRoom.Reseed

open LinkWalk LinkTree PyStr

/-! ## Paths -/

/-- A code point a file name can have: not NUL, and a surrogate only where it stands for a byte. -/
def isFsCode (c : CodePoint) : Bool :=
  c.val != 0 && (!isSurrogate c || (0xdc80 ≤ c.val && c.val ≤ 0xdcff))

/-- The name of a file or directory. -/
def IsFsName (text : PyStr) : Prop :=
  text ≠ [] ∧ text ≠ lit "." ∧ text ≠ lit ".." ∧ codePoint '/' ∉ text ∧ text.all isFsCode = true

instance (text : PyStr) : Decidable (IsFsName text) := inferInstanceAs (Decidable (_ ∧ _))

abbrev FsName := { text : PyStr // IsFsName text }

abbrev FsTree := Tree FsName (List UInt8)

/-- The components that `Path(text)` keeps. -/
def components (text : PyStr) : List PyStr :=
  (text.splitOn (codePoint '/')).filter fun c => c ≠ [] ∧ c ≠ lit "."

/-- A component, if the file system can be asked for it. -/
def component (text : PyStr) : Option (Step FsName) :=
  if text = lit ".." then some .up
  else if h : IsFsName text then some (.into ⟨text, h⟩)
  else none

/-- `Path(text)`, if the file system can be asked for it. -/
def fsPath (text : PyStr) : Option (Route FsName) :=
  ((components text).mapM component).map fun steps =>
    { absolute := text.head? == some (codePoint '/'), steps }

/-! ## Re-seeding -/

/-- What re-seeding raises, and starting the command after it. -/
inductive ReseedFault
  | rootMissing (root : Location FsName)
  | unaskable (relative : PyStr)
  | symlinkLoop
  | escapesRoot (relative : PyStr) (root resolved : Location FsName)
  | unicodeEncodeError
  | osError (fault : Fault FsName)
  | embeddedNull
  deriving DecidableEq

/-- `path.resolve()`: an endless loop of links raises. -/
def resolvePath (t : FsTree) (p : Route FsName) : Except ReseedFault (Location FsName) :=
  match t.resolve p with
  | some l => .ok l
  | none => .error .symlinkLoop

/-- `Path(relative)`, which only fails when the file system is asked for it. -/
def candidatePath (relative : PyStr) : Except ReseedFault (Route FsName) :=
  match fsPath relative with
  | some p => .ok p
  | none => .error (.unaskable relative)

/-- `resolve_within_root`. -/
def resolveWithinRoot (t : FsTree) (root : Route FsName) (relative : PyStr) :
    Except ReseedFault (Location FsName) := do
  let rootResolved ← resolvePath t root
  if (t.entry rootResolved).isNone then throw (.rootMissing rootResolved)
  else
    let candidate ← candidatePath relative
    let target ← resolvePath t
      (if candidate.absolute then candidate
        else { absolute := true, steps := rootResolved.map .into ++ candidate.steps })
    if rootResolved <+: target then return target
    else throw (.escapesRoot relative rootResolved target)

/-- `target.write_text(content, encoding="utf-8")`. -/
def writeText (t : FsTree) (target : Location FsName) (content : PyStr) :
    Except ReseedFault FsTree := do
  -- opening truncates: what cannot be encoded leaves an empty file
  let t ← (t.write target ((encodeStrict content).getD [])).mapError .osError
  if (encodeStrict content).isSome then return t
  else throw .unicodeEncodeError

/-- `_reseed_verify_files`. -/
def reseedVerifyFiles (t : FsTree) (workspace : Route FsName) :
    List (PyStr × PyStr) → Except ReseedFault FsTree
  | [] => return t
  | (rel, content) :: rest => do
      let target ← resolveWithinRoot t workspace rel
      let t ← (t.mkdir target.dropLast).mapError .osError
      let t ← writeText t target content
      reseedVerifyFiles t workspace rest

/-- Whether the command is handed to the system: the allowlist has not rejected it. -/
def allowed : OracleOutcome → Bool
  | .rejected _ => false
  | .failedToStart _ => true
  | .timedOut _ => true
  | .exited _ _ => true

/-- Whether the process of the command was started. -/
def started : OracleOutcome → Bool
  | .rejected _ => false
  | .failedToStart _ => false
  | .timedOut _ => true
  | .exited _ _ => true

/-- A NUL in the command, which splitting leaves in an argument. -/
def hasNul (command : Option String) : Bool :=
  (Py.orEmpty command).toList.contains (Char.ofNat 0)

/-- `verifier`, with the file system the command runs on. `verify_files` is taken apart from the
state, whose texts have no surrogates. -/
def verifierNode (w : World) (t : FsTree) (workspace : Route FsName) (s : TaskState)
    (verifyFiles : List (PyStr × PyStr)) : Except ReseedFault (NodeRun × FsTree) := do
  if Py.truthy s.verifyCommand then
    let t ← reseedVerifyFiles t workspace verifyFiles
    -- `create_subprocess_exec` raises a `ValueError`, and only `OSError` is caught
    if allowed w.oracle && hasNul s.verifyCommand then throw .embeddedNull
    else return (verifier w s, t)
  else return (verifier w s, t)

end AgentRoom.Reseed
