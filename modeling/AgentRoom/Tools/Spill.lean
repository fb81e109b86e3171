import AgentRoom.Messages
import AgentRoom.PyStr
import AgentRoom.Lib.FirstWriter

set_option autoImplicit false

/-! # Spilling large tool outputs

A tool output over the threshold is put into a store, and its message keeps a placeholder: the
store's reference, the size, and a preview.
-/

namespace AgentRoom.Spill

open PyStr

/-! ## Tool messages -/

/-- A value of a dict block, as far as `x or y`, `x is None` and `str(x)` look at it. -/
inductive BlockValue
  | none
  | str (s : PyStr)
  | other (truthy : Bool) (text : PyStr)

def BlockValue.truthy : BlockValue → Bool
  | .none => false
  | .str s => !s.isEmpty
  | .other truthy _ => truthy

/-- One block of a list-shaped content; a dict comes with its `str`. -/
inductive Block
  | str (s : PyStr)
  | dict (fields : List (PyStr × BlockValue)) (text : PyStr)

inductive Content
  | str (s : PyStr)
  | blocks (bs : List Block)

structure ToolMessage where
  content : Content
  toolCallId : PyStr
  name : Option PyStr := none
  id : Option PyStr := none
  status : ToolStatus := .success
  artifact : Value := .none
  additionalKwargs : List (PyStr × Value) := []
  responseMetadata : List (PyStr × Value) := []

/-- A message of the list: a tool message, or one of the other kinds. -/
inductive Message (ρ : Type*)
  | tool (m : ToolMessage)
  | other (m : ρ)

/-- `d.get(k)`. -/
def dictGet (fields : List (PyStr × BlockValue)) (k : PyStr) : BlockValue :=
  (fields.lookup k).getD .none

def Block.stringify : Block → PyStr
  | .str s => s
  | .dict fields text =>
      -- `block.get("text") or block.get("content")`
      let txt :=
        if (dictGet fields (lit "text")).truthy then dictGet fields (lit "text")
        else dictGet fields (lit "content")
      match txt with
      | .none => text
      | .str s => s
      | .other _ s => s

/-- `_stringify`. -/
def stringify : Content → PyStr
  | .str s => s
  | .blocks bs => join (lit "\n") (bs.map Block.stringify)

/-! ## Placeholders -/

/-- `_PREVIEW_CHARS`. -/
def previewChars : Nat := 400

/-- `_REF_PREFIX`, with the bracket in front of it. -/
def refBracket : PyStr := lit "[spill:"

/-- `_REF_HASH_LEN`. -/
def refHashLen : Nat := 12

structure SpillRef where
  ref : PyStr
  size : Int

/-- `_format_placeholder`. -/
def formatPlaceholder (ref : PyStr) (size : Int) (preview : PyStr) : PyStr :=
  refBracket ++ ref ++ lit " size=" ++ ofInt size ++
    lit "] output spilled to store; preview (" ++ ofInt preview.length ++ lit "/" ++ ofInt size ++
    lit " chars):\n" ++ preview

def SpillRef.placeholderText (r : SpillRef) (preview : PyStr) : PyStr :=
  formatPlaceholder r.ref r.size preview

/-- `_looks_like_placeholder`. -/
def looksLikePlaceholder (body : PyStr) : Bool := refBracket.isPrefixOf body

/-- `_make_preview`. -/
def makePreview (body : PyStr) : PyStr :=
  if body.length ≤ previewChars then body
  else
    let head := body.take previewChars
    let lastNewline := rfind (codePoint '\n') head
    if lastNewline > ((previewChars / 2 : Nat) : Int) then head.take (lastNewline + 1).toNat
    else head

/-! ## Stores -/

/-- `SpillStore`, with the state it keeps. -/
structure SpillStore (σ : Type*) where
  put : σ → PyStr → SpillRef × σ
  get : σ → PyStr → Option PyStr

/-- The 32 bytes of a SHA-256. -/
abbrev Digest := { bytes : List UInt8 // bytes.length = 32 }

/-- `hexdigest()`. -/
def hexdigest (d : Digest) : PyStr := d.val.flatMap fun b => lit (Py.hex2 b.toNat)

/-- `InMemorySpillStore._data`. -/
structure InMemorySpillStore where
  data : PyStr → Option PyStr := fun _ => none

section Hash

variable (sha256 : List UInt8 → Digest)

/-- The reference a payload is kept under. -/
def refOfBytes (bytes : List UInt8) : PyStr := (hexdigest (sha256 bytes)).take refHashLen

/-- `InMemorySpillStore.put`. -/
def InMemorySpillStore.put (store : InMemorySpillStore) (payload : PyStr) :
    SpillRef × InMemorySpillStore :=
  let ref := refOfBytes sha256 (encodeReplace payload)
  ({ ref, size := payload.length },
    match store.data ref with
    | none => { data := Function.update store.data ref (some payload) }
    -- first writer wins; a different payload is only logged
    | some _ => store)

/-- `InMemorySpillStore` as a spill store. -/
def inMemory : SpillStore InMemorySpillStore where
  put := InMemorySpillStore.put sha256
  get store ref := store.data ref

end Hash

/-! ## Spilling -/

section Spilling

variable {σ ρ : Type*} (store : SpillStore σ) (threshold : Int)

/-- `maybe_spill_tool_message`, with the store after it. -/
def maybeSpillToolMessage (s : σ) (msg : ToolMessage) : ToolMessage × σ :=
  let body := stringify msg.content
  if body.length ≤ threshold then (msg, s)
  else if looksLikePlaceholder body then (msg, s)
  else
    let put := store.put s body
    ({ content := .str (put.1.placeholderText (makePreview body))
       toolCallId := msg.toolCallId
       name := msg.name }, put.2)

/-- `spill_messages`, with the store after it. -/
def spillMessages (s : σ) : List (Message ρ) → List (Message ρ) × σ
  | [] => ([], s)
  | .tool m :: rest =>
      let spilled := maybeSpillToolMessage store threshold s m
      let out := spillMessages spilled.2 rest
      (.tool spilled.1 :: out.1, out.2)
  | .other m :: rest =>
      let out := spillMessages s rest
      (.other m :: out.1, out.2)

/-! ### What a call spills -/

/-- The body of a message that is replaced, if it is. -/
def spilledBody (msg : ToolMessage) : Option PyStr :=
  if threshold < (stringify msg.content).length ∧
      looksLikePlaceholder (stringify msg.content) = false then
    some (stringify msg.content)
  else none

/-- The bodies of a list that are replaced. -/
def spilledBodies (messages : List (Message ρ)) : List PyStr :=
  messages.filterMap fun
    | .tool m => spilledBody threshold m
    | .other _ => none

/-- The message that stands for a spilled one. -/
def placeholderMessage (r : SpillRef) (msg : ToolMessage) : ToolMessage where
  content := .str (r.placeholderText (makePreview (stringify msg.content)))
  toolCallId := msg.toolCallId
  name := msg.name

variable {store threshold}

theorem spilledBody_eq_some_iff {msg : ToolMessage} {body : PyStr} :
    spilledBody threshold msg = some body ↔
      stringify msg.content = body ∧ threshold < body.length ∧
        looksLikePlaceholder body = false := by
  unfold spilledBody
  constructor
  · intro h
    obtain ⟨hcond, hbody⟩ := Option.ite_none_right_eq_some.mp h
    rw [Option.some.injEq] at hbody
    subst hbody
    exact ⟨rfl, hcond⟩
  · rintro ⟨rfl, hcond⟩
    rw [if_pos hcond]

/-- A message whose body is not spilled passes through. -/
theorem maybeSpill_of_none {msg : ToolMessage} (s : σ) (h : spilledBody threshold msg = none) :
    maybeSpillToolMessage store threshold s msg = (msg, s) := by
  unfold maybeSpillToolMessage
  by_cases hlen : (stringify msg.content).length ≤ threshold
  · rw [if_pos hlen]
  · have hlook : looksLikePlaceholder (stringify msg.content) = true := by
      by_contra hnot
      rw [Bool.not_eq_true] at hnot
      have hsome := spilledBody_eq_some_iff.mpr ⟨rfl, not_le.mp hlen, hnot⟩
      rw [h] at hsome
      cases hsome
    rw [if_neg hlen, if_pos hlook]

/-- A message whose body is spilled keeps a placeholder. -/
theorem maybeSpill_of_some {msg : ToolMessage} {body : PyStr} (s : σ)
    (h : spilledBody threshold msg = some body) :
    maybeSpillToolMessage store threshold s msg =
      (placeholderMessage (store.put s body).1 msg, (store.put s body).2) := by
  obtain ⟨hbody, hlen, hlook⟩ := spilledBody_eq_some_iff.mp h
  unfold maybeSpillToolMessage
  rw [hbody, if_neg (not_le.mpr hlen), hlook, if_neg Bool.false_ne_true, placeholderMessage, hbody]

theorem spilledBodies_tool_of_none {msg : ToolMessage} (rest : List (Message ρ))
    (h : spilledBody threshold msg = none) :
    spilledBodies threshold (.tool msg :: rest) = spilledBodies threshold rest := by
  simp [spilledBodies, h]

theorem spilledBodies_tool_of_some {msg : ToolMessage} {body : PyStr} (rest : List (Message ρ))
    (h : spilledBody threshold msg = some body) :
    spilledBodies threshold (.tool msg :: rest) = body :: spilledBodies threshold rest := by
  simp [spilledBodies, h]

@[simp] theorem spilledBodies_other (m : ρ) (rest : List (Message ρ)) :
    spilledBodies threshold (.other m :: rest) = spilledBodies threshold rest := rfl

theorem mem_spilledBodies {messages : List (Message ρ)} {body : PyStr} :
    body ∈ spilledBodies threshold messages ↔
      ∃ m, .tool m ∈ messages ∧ spilledBody threshold m = some body := by
  unfold spilledBodies
  rw [List.mem_filterMap]
  constructor
  · rintro ⟨msg, hmem, hbody⟩
    cases msg with
    | tool m => exact ⟨m, hmem, hbody⟩
    | other m => cases hbody
  · rintro ⟨m, hmem, hbody⟩
    exact ⟨.tool m, hmem, hbody⟩

/-- The store after some bodies were put in order. -/
def SpillStore.putAll (store : SpillStore σ) (s : σ) (bodies : List PyStr) : σ :=
  bodies.foldl (fun s body => (store.put s body).2) s

/-- **The store after a call**: the spilled bodies were put, in order. -/
theorem spillMessages_state (s : σ) (messages : List (Message ρ)) :
    (spillMessages store threshold s messages).2 =
      store.putAll s (spilledBodies threshold messages) := by
  induction messages generalizing s with
  | nil => rfl
  | cons msg rest ih =>
      cases msg with
      | other m => exact ih s
      | tool m =>
          cases hbody : spilledBody threshold m with
          | none =>
              rw [spilledBodies_tool_of_none rest hbody, ← ih s]
              simp only [spillMessages, maybeSpill_of_none s hbody]
          | some body =>
              rw [spilledBodies_tool_of_some rest hbody]
              simp only [spillMessages, maybeSpill_of_some s hbody, ih]
              rfl

end Spilling

end AgentRoom.Spill
