import AgentRoom.Guardrail
import AgentRoom.Lib.LinkStore
import AgentRoom.Roles.Verifier
import AgentRoom.Tools.Fs

set_option autoImplicit false

/-! # The file tools on a workspace with links

`read_text` and `write_text` as the developer calls them, one call after another, on a file
system with symbolic and hard links. A call that fails may leave directories behind. That the
bytes of a file are written in one piece is assumed of the system, and a file that cannot be
written stays as it was.
-/

namespace AgentRoom.Files

open LinkWalk LinkTree PyStr Fs Reseed

/-- What a file tool raises. -/
inductive FileFault
  | tripwire (finding : GuardrailFinding)
  | path (fault : ReseedFault)
  | fileNotFound (path : PyStr)
  | notRegular (path : PyStr)
  | parentMissing (parent : Location FsName)
  | unicodeEncodeError
  | refusedRead (target : Location FsName)
  | osError (fault : LinkTree.Fault FsName)
  deriving DecidableEq

/-- The tools with their root. `check` is the guardrail's finding where it trips on a text, and
`refusesRead` tells which files cannot be opened. -/
structure FileTools where
  root : Route FsName
  maxBytes : Int := defaultMaxBytes
  check : PyStr → Option GuardrailFinding := fun _ => none
  refusesRead : Location FsName → Bool := fun _ => false

namespace FileTools

variable (tools : FileTools)

/-- `ReadTextTool._run`. -/
def readText (t : FsTree) (path : PyStr) : Except FileFault PyStr := do
  let target ← (Reseed.resolveWithinRoot t tools.root path).mapError .path
  match t.entry target with
  | none => throw (.fileNotFound path)
  | some .directory | some (.link _) => throw (.notRegular path)
  | some (.file i) =>
      if tools.refusesRead target then throw (.refusedRead target)
      else match truncate (Fs.readText (t.contents i)) tools.maxBytes with
        | none => throw .unicodeEncodeError
        | some text => return text

/-- The parent directory of a file that is to be written. -/
def makeRoom (t : FsTree) (target : Location FsName) (createDirs : Bool) :
    FsTree × Option FileFault :=
  if createDirs then
    ((t.makeParents target.dropLast).1, (t.makeParents target.dropLast).2.map .osError)
  else if t.entry target.dropLast = none then (t, some (.parentMissing target.dropLast))
  else (t, none)

/-- `WriteTextTool._run`, with the tree it leaves. -/
def writeText (t : FsTree) (path content : PyStr) (createDirs : Bool) :
    Except FileFault PyStr × FsTree :=
  match tools.check content with
  | some finding => (.error (.tripwire finding), t)
  | none =>
      match Reseed.resolveWithinRoot t tools.root path with
      | .error fault => (.error (.path fault), t)
      | .ok target =>
          match makeRoom t target createDirs with
          | (t, some fault) => (.error fault, t)
          | (t, none) =>
              match encodeStrict content with
              | none => (.error .unicodeEncodeError, t)
              | some encoded =>
                  match t.write target encoded with
                  | .error fault => (.error (.osError fault), t)
                  | .ok t =>
                      (.ok (lit "wrote " ++ ofInt encoded.length ++ lit " bytes to " ++ path), t)

end FileTools

/-- A call of a file tool, with what it returned or raised. -/
inductive FileCall
  | read (path : PyStr) (result : Except FileFault PyStr)
  | write (path content : PyStr) (createDirs : Bool) (result : Except FileFault PyStr)

end AgentRoom.Files
