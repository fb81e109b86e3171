import AgentRoom.Py

set_option autoImplicit false

/-! # Chat messages

The four message kinds a transcript holds. System and human messages are only ever built by
the program itself, from text; the content of a model's or a tool's message may also be a
list of blocks.
-/

namespace AgentRoom

/-- One block of a list-shaped content. -/
inductive Block
  | str (s : String)
  | dict (fields : List (String × Value))

/-- `BaseMessage.content`. -/
inductive Content
  | str (s : String)
  | blocks (bs : List Block)

structure ToolCall where
  name : String
  args : List (String × Value) := []
  id : String

structure AIMessage where
  content : Content
  toolCalls : List ToolCall := []

inductive ToolStatus
  | success | error
  deriving DecidableEq, Repr

structure ToolMessage where
  content : Content
  toolCallId : String
  name : Option String := none
  id : Option String := none
  status : ToolStatus := .success
  artifact : Value := .none
  additionalKwargs : List (String × Value) := []
  responseMetadata : List (String × Value) := []

inductive Message
  | system (text : String)
  | human (text : String)
  | ai (m : AIMessage)
  | tool (m : ToolMessage)

namespace Message

/-- `m.type`. -/
def type : Message → String
  | system _ => "system"
  | human _ => "human"
  | ai _ => "ai"
  | tool _ => "tool"

/-- `isinstance(m, ToolMessage)`. -/
def isTool : Message → Bool
  | tool _ => true
  | _ => false

/-- `isinstance(m, AIMessage) and bool(m.tool_calls)`. -/
def isAiWithToolCalls : Message → Bool
  | ai m => !m.toolCalls.isEmpty
  | _ => false

/-- `m.tool_calls`, empty for a message that has none. -/
def toolCalls : Message → List ToolCall
  | ai m => m.toolCalls
  | _ => []

end Message

/-- The text of one block that is shown to a user: a string block, or the `text` of a dict
block of type `text`. -/
def Block.visibleText : Block → String
  | .str s => s
  | .dict fields =>
      if (fields.lookup "type").bind Value.asStr? = some "text" then
        ((fields.lookup "text").bind Value.asStr?).getD ""
      else ""

/-- `extract_text` on a content: the text itself, or the visible texts of its blocks. -/
def Content.extractText : Content → String
  | .str s => s
  | .blocks bs => Py.join "" (bs.map Block.visibleText)

/-- `extract_text`: the user-visible text of a message. -/
def extractText : Message → String
  | .system t => t
  | .human t => t
  | .ai m => m.content.extractText
  | .tool m => m.content.extractText

/-- The text a block carries: a string block, or the `text` of a dict block of any type. -/
def Block.carriedText : Block → Option String
  | .str s => some s
  | .dict fields => (fields.lookup "text").bind Value.asStr?

/-- The texts a content carries. -/
def Content.texts : Content → List String
  | .str s => [s]
  | .blocks bs => bs.filterMap Block.carriedText

end AgentRoom
