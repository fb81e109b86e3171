import AgentRoom.World

set_option autoImplicit false

/-! # Tools: registry, permission policy and execution -/

namespace AgentRoom

inductive PermissionMode
  | readOnly | approval | unrestricted
  deriving DecidableEq, Repr

/-- `DEFAULT_MODE`. -/
def defaultMode : PermissionMode := .readOnly

/-- A registered tool: its name and the `read_only` flag of its metadata, if set. -/
structure Tool where
  name : String
  readOnlyFlag : Option Bool := none
  deriving DecidableEq, Repr

/-- The registered tools; names are the keys. -/
abbrev Registry := List Tool

/-- `is_read_only`: the author's flag, then the built-in table, then no. -/
def Tool.isReadOnly (t : Tool) : Bool :=
  match t.readOnlyFlag with
  | some flag => flag
  | none => t.name == "read_text" || t.name == "glob"

/-- `apply_policy`. -/
def applyPolicy (tools : List Tool) : PermissionMode → List Tool
  | .approval => tools
  | .unrestricted => tools
  | .readOnly => tools.filter Tool.isReadOnly

/-- The tool registered under a name. -/
def Registry.get? (reg : Registry) (name : String) : Option Tool :=
  reg.find? (fun t => t.name == name)

/-- `resolve_tool_names`: an unregistered name fails the build. -/
def resolveToolNames (names : List String) (reg : Registry) : Option (List Tool) :=
  names.mapM reg.get?

/-! ## Running a tool call -/

/-- The argument that the `tool_call` checkpoint of the built-in tools scans: the content
`write_text` is about to write, the command `shell` is about to run. -/
def ToolCall.checkedText (call : ToolCall) : Option String :=
  if call.name = "write_text" then (call.args.lookup "content").bind Value.asStr?
  else if call.name = "shell" then (call.args.lookup "command").bind Value.asStr?
  else none

/-- What a tool call raises. -/
inductive ToolError
  | invalidArgs (reason : String)
  | guardrail (finding : GuardrailFinding)
  | other (reason : String)

/-- `str(exc)`. -/
def ToolError.text : ToolError → String
  | .invalidArgs reason => reason
  | .guardrail f => f.tripwireText
  | .other reason => reason

/-- The guardrail checkpoint at the start of the `write_text` and `shell` bodies. -/
def checkToolCall (b : Bindings) (call : ToolCall) : Except ToolError Unit :=
  match call.checkedText with
  | none => .ok ()
  | some text =>
      match b.guardrail.check text .toolCall with
      | .error finding => .error (.guardrail finding)
      | .ok _ => .ok ()

/-- The types of the blocks that a tool message holds as they are. -/
def toolMessageBlockTypes : List String :=
  ["text", "image_url", "image", "json", "search_result", "custom_tool_call_output", "document",
    "file"]

/-- A dictionary of one of these types. -/
def Block.isToolMessageBlock : Block → Bool
  | .str _ => false
  | .dict fields =>
      match fields.lookup "type" with
      | some (.str type) => toolMessageBlockTypes.contains type
      | _ => false

def Block.value : Block → Value
  | .str s => .str s
  | .dict fields => .dict fields

/-- What the tool node stores of the content that a tool returns: a list with any other block
becomes its JSON text. -/
def msgContentOutput (dumps : Value → String) : Content → Content
  | .str s => .str s
  | .blocks bs =>
      if bs.all Block.isToolMessageBlock then .blocks bs
      else .str (dumps (.list (bs.map Block.value)))

/-- One call of a tool: argument validation, the checkpoint, then the work. -/
def runTool (b : Bindings) (w : World) (call : ToolCall) : Except ToolError Content :=
  match w.tool call with
  -- the arguments are validated before the body, and so before its checkpoint
  | .invalidArgs reason => .error (.invalidArgs reason)
  | .returned content => (checkToolCall b call).map (fun _ => msgContentOutput w.dumps content)
  | .raised reason => (checkToolCall b call).bind (fun _ => .error (.other reason))

/-- `_tool_error_to_message`. -/
def toolErrorToMessage (exc : ToolError) : String :=
  "Tool call failed: " ++ exc.text ++ ". This is a recoverable error — adjust the " ++
  "call (for example use an allowed command or fix the arguments) and try " ++
  "a different tool call."

/-- The answer of the tool node to a call of a tool it does not have. -/
def invalidToolMessage (tools : List Tool) (call : ToolCall) : ToolMessage :=
  { content := .str ("Error: " ++ call.name ++ " is not a valid tool, try one of [" ++
      Py.join ", " (tools.map Tool.name) ++ "].")
    toolCallId := call.id, name := some call.name, status := .error }

/-- The tool node has the tool a call names. -/
def hasTool (tools : List Tool) (call : ToolCall) : Bool :=
  tools.any (fun t => t.name == call.name)

/-- One call of a tool node that feeds errors back (`handle_tool_errors`). -/
def toolNodeMessage (tools : List Tool) (b : Bindings) (w : World) (call : ToolCall) :
    ToolMessage :=
  if hasTool tools call then
    match runTool b w call with
    | .ok content => { content := content, toolCallId := call.id, name := some call.name }
    | .error exc =>
        { content := .str (toolErrorToMessage exc), toolCallId := call.id, name := some call.name,
          status := .error }
  else invalidToolMessage tools call

/-- The tool calls a tool node answers: those of the last message. -/
def pendingCalls (msgs : List Message) : List ToolCall :=
  match msgs.getLast? with
  | some m => m.toolCalls
  | none => []

@[simp] theorem pendingCalls_nil : pendingCalls [] = [] := rfl

@[simp] theorem pendingCalls_concat (msgs : List Message) (m : Message) :
    pendingCalls (msgs ++ [m]) = m.toolCalls := by
  simp [pendingCalls]

/-- `ToolNode(tools, messages_key="dev_messages", handle_tool_errors=...)`. -/
def toolNode (tools : List Tool) (b : Bindings) (w : World) (s : TaskState) : NodeRun :=
  let calls := pendingCalls s.devMessages
  { toolRuns := calls.filter (hasTool tools)
    update := { devMessages := calls.map (fun c => .tool (toolNodeMessage tools b w c)) } }

end AgentRoom
