import AgentRoom.Lib.Utf8

set_option autoImplicit false

/-! # The client's event-stream parser

`parseSseStream` decodes the chunks of a response body, normalises the line ends of each chunk,
and cuts the accumulated text at blank lines; `parseSseBlock` reads the fields of one block.
Texts are lists of code points: every operation here looks for ASCII characters only.
-/

namespace AgentRoom

abbrev Text := List Char

/-- `SseFrame`. -/
structure SseFrame where
  event : Option Text := none
  data : Text
  id : Option Text := none
  deriving DecidableEq

namespace Web

/-- What `trim` removes. -/
def isSpace (c : Char) : Bool :=
  let n := c.toNat
  (9 ≤ n && n ≤ 13) || n == 32 || n == 0xa0 || n == 0x1680 || (0x2000 ≤ n && n ≤ 0x200a) ||
    n == 0x2028 || n == 0x2029 || n == 0x202f || n == 0x205f || n == 0x3000 || n == 0xfeff

/-! ## Decoding -/

/-- A `TextDecoder` for UTF-8: a byte order mark at the very start is dropped. -/
structure TextDecoder where
  decoder : Utf8.Decoder := .start
  bomSeen : Bool := false

/-- `decoder.decode(value, { stream })`. -/
def TextDecoder.decode (td : TextDecoder) (bytes : List UInt8) (stream : Bool) :
    TextDecoder × Text :=
  let d := (Utf8.decode td.decoder bytes).1
  let out := (Utf8.decode td.decoder bytes).2 ++ if stream then [] else Utf8.flush d
  let text := if td.bomSeen = false ∧ out.head? = some '\ufeff' then out.tail else out
  (⟨if stream then d else .start, td.bomSeen || !out.isEmpty⟩, text)

/-- `.replace(/\r\n/g, '\n')`. -/
def replaceCrlf : Text → Text
  | [] => []
  | '\r' :: '\n' :: rest => '\n' :: replaceCrlf rest
  | c :: rest => c :: replaceCrlf rest

/-! ## Blocks -/

/-- The loop over `buffer.indexOf('\n\n')`: the blocks before each boundary, and the buffer that
is left. -/
def cutBlocks : Text → List Text × Text
  | [] => ([], [])
  | '\n' :: '\n' :: rest => ([] :: (cutBlocks rest).1, (cutBlocks rest).2)
  | c :: rest =>
      match cutBlocks rest with
      | (block :: blocks, buffer) => ((c :: block) :: blocks, buffer)
      | ([], buffer) => ([], c :: buffer)

/-- The fields of a block read so far. -/
structure SseFields where
  event : Option Text := none
  id : Option Text := none
  data : List Text := []
  deriving DecidableEq

/-- One round of the loop over the lines. -/
def readLine (fields : SseFields) (line : Text) : SseFields :=
  if line = [] ∨ line.head? = some ':' then fields
  else
    let field := line.takeWhile (· != ':')
    -- without a colon the value is empty
    let rest := (line.dropWhile (· != ':')).tail
    let value := if rest.head? = some ' ' then rest.tail else rest
    if field = ['d', 'a', 't', 'a'] then { fields with data := fields.data ++ [value] }
    else if field = ['e', 'v', 'e', 'n', 't'] then { fields with event := some value }
    else if field = ['i', 'd'] then { fields with id := some value }
    else fields

/-- `data.length ? { event, data: data.join('\n'), id } : null`. -/
def SseFields.frame (fields : SseFields) : Option SseFrame :=
  if fields.data = [] then none
  else some ⟨fields.event, ['\n'].intercalate fields.data, fields.id⟩

/-- `parseSseBlock`. -/
def parseSseBlock (block : Text) : Option SseFrame :=
  if block.all isSpace then none
  else ((block.splitOn '\n').foldl readLine {}).frame

/-! ## The stream -/

/-- The local variables of `parseSseStream`. -/
structure SseParser where
  decoder : TextDecoder := {}
  buffer : Text := []

/-- One round with a chunk. -/
def SseParser.read (p : SseParser) (chunk : List UInt8) : SseParser × List SseFrame :=
  let decoded := p.decoder.decode chunk true
  let cut := cutBlocks (p.buffer ++ replaceCrlf decoded.2)
  (⟨decoded.1, cut.2⟩, cut.1.filterMap parseSseBlock)

/-- The round with `done`: what is left of the buffer is parsed as a block. -/
def SseParser.finish (p : SseParser) : List SseFrame :=
  let decoded := p.decoder.decode [] false
  let cut := cutBlocks (p.buffer ++ replaceCrlf decoded.2)
  cut.1.filterMap parseSseBlock ++ (parseSseBlock cut.2).toList

def SseParser.run (p : SseParser) : List (List UInt8) → List SseFrame
  | [] => p.finish
  | chunk :: chunks => (p.read chunk).2 ++ (p.read chunk).1.run chunks

/-- What `parseSseStream` yields for the chunks of a response that ends cleanly. -/
def parseSseStream (chunks : List (List UInt8)) : List SseFrame := SseParser.run {} chunks

end Web

end AgentRoom
