import AgentRoom.Lib.Utf8Cut
import AgentRoom.PyStr
import AgentRoom.Server.Workspace

set_option autoImplicit false

/-! # The tool that reads files

`read_text` returns a file of the workspace as text. A long text is cut at a number of bytes,
and a last line says how many bytes were left out.
-/

namespace AgentRoom.Fs

open Posix PyStr

/-- `DEFAULT_MAX_BYTES`. -/
def defaultMaxBytes : Int := 8 * 1024

/-- `bytes[:n]`. -/
def sliceTo (n : Int) (bytes : List UInt8) : List UInt8 :=
  if 0 ≤ n then bytes.take n.toNat else bytes.take (bytes.length - n.natAbs)

/-- What is put after a text that was cut. -/
def announcement (n : Int) : PyStr :=
  lit "\n[... truncated, " ++ ofInt n ++ lit " more bytes]"

/-- `_truncate`; without a result where `encode` raises. -/
def truncate (text : PyStr) (maxBytes : Int) : Option PyStr := do
  let encoded ← encodeStrict text
  if encoded.length ≤ maxBytes then return text
  let head := (Utf8.decodeIgnore .start (sliceTo maxBytes encoded)).map codePoint
  return head ++ announcement (encoded.length - maxBytes)

/-- The line ends a file opened as text shows: `\r\n` and `\r` are read as `\n`. -/
def universalNewlines : List Char → List Char
  | [] => []
  | '\r' :: '\n' :: t => '\n' :: universalNewlines t
  | '\r' :: t => '\n' :: universalNewlines t
  | c :: t => c :: universalNewlines t

/-- `target.read_text(encoding="utf-8", errors="replace")`, on the file's bytes. -/
def readText (raw : List UInt8) : PyStr :=
  let decoded := Utf8.decode .start raw
  (universalNewlines (decoded.2 ++ Utf8.flush decoded.1)).map codePoint

/-- What `read_text` raises. -/
inductive ReadFault
  | fault (f : Fault)
  | fileNotFound (text : String)
  | valueError (text : String)
  | unicodeEncodeError

/-- `ReadTextTool._run`. -/
def ReadTextTool.run (t : FileTree) (root : Path) (maxBytes : Int) (path : String) :
    Except ReadFault PyStr :=
  match resolveWithinRoot t root path with
  | .error f => .error (.fault f)
  | .ok target =>
      match t.stat target with
      | .error f => .error (.fault f)
      | .ok none => .error (.fileNotFound ("no such file: " ++ path))
      | .ok (some .directory) => .error (.valueError ("not a regular file: " ++ path))
      | .ok (some (.file raw)) =>
          if t.refuses .read target then .error (.fault (.osError .read target))
          else match truncate (readText raw) maxBytes with
            | none => .error .unicodeEncodeError
            | some text => .ok text

end AgentRoom.Fs
