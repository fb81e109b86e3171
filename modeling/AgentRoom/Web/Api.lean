import AgentRoom.Web.Sse

set_option autoImplicit false

/-! # The client's cursor

`readSse` passes the id of every frame to `onFrameId`, which sets the cursor the stream is
resumed from.
-/

namespace AgentRoom.Web

/-- The number of a frame, where it has one; `number` is `Number`, with `none` for `NaN`. -/
def frameNumber (number : Text → Option Int) (frame : SseFrame) : Option Int :=
  match frame.id with
  | none => none
  | some id => if id = [] then none else number id

/-- `lastId` after some frames. -/
def cursorAfter (number : Text → Option Int) (lastId : Int) (frames : List SseFrame) : Int :=
  frames.foldl (fun last frame => (frameNumber number frame).getD last) lastId

end AgentRoom.Web
