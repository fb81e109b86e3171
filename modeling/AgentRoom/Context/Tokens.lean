import AgentRoom.Messages

set_option autoImplicit false

/-! # Token counting

`count_message_tokens` approximates the size of a message: the encoded length of its text, a
fixed overhead, and the encoded length of its tool calls. The encoder and Python's `str` of
the values it is fed come from outside.
-/

namespace AgentRoom

/-- `bool(v)`. -/
def Value.truthy : Value → Bool
  | .none => false
  | .bool b => b
  | .int n => n != 0
  | .float q => q != 0
  | .str s => s != ""
  | .list xs => !xs.isEmpty
  | .dict fields => !fields.isEmpty

/-- What the counter takes from outside: `_encode_len`, and `str` of a value that is no text
and of a tool call. -/
structure Tokenizer where
  encodeLen : String → Nat
  str : Value → String
  strCall : ToolCall → String

/-- `_PER_MESSAGE_OVERHEAD`. -/
def perMessageOverhead : Nat := 4

/-- `block.get(key, "")`, when it is truthy. -/
def Block.field? (key : String) (fields : List (String × Value)) : Option Value :=
  (fields.lookup key).filter Value.truthy

/-- What `_text_of` takes from one block. -/
def Block.countedText (tok : Tokenizer) : Block → String
  | .str s => s
  | .dict fields =>
      match (Block.field? "text" fields).or (Block.field? "content" fields) with
      | none => ""
      | some (.str s) => s
      | some v => tok.str v

def Content.countedText (tok : Tokenizer) : Content → String
  | .str s => s
  | .blocks bs => Py.join " " (bs.map (Block.countedText tok))

/-- `_text_of`. -/
def Message.countedText (tok : Tokenizer) : Message → String
  | .system t => t
  | .human t => t
  | .ai m => m.content.countedText tok
  | .tool m => m.content.countedText tok

/-- `count_message_tokens`. -/
def countMessageTokens (tok : Tokenizer) (m : Message) : Nat :=
  tok.encodeLen (m.countedText tok) + perMessageOverhead +
    if m.toolCalls.isEmpty then 0
    else tok.encodeLen (Py.join " " (m.toolCalls.map tok.strCall))

/-- The encoder without `tiktoken`: a quarter of the characters. -/
def estimateLen (text : String) : Nat := text.length / 4

/-- The counter without `tiktoken`; `str` of a tool call as for calls without arguments. -/
def estimatedTokens : Tokenizer where
  encodeLen := estimateLen
  str := fun _ => ""
  strCall := fun c => "\x7b'name': " ++ Py.repr c.name ++ ", 'args': \x7b\x7d, 'id': " ++
    Py.repr c.id ++ ", 'type': 'tool_call'\x7d"

end AgentRoom
