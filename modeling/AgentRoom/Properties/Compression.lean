import AgentRoom.Context.Partition
import AgentRoom.Context.Tokens
import AgentRoom.Lib.Exchange

set_option autoImplicit false

/-! # Compression and tool-call groups

A provider refuses a message list in which a tool call is not answered right after it, or an
answer has no call. The tail of a compression is cut between two groups; the head is repaired
only when it ends with the call itself. So compressing keeps a list legal unless the first
`protect_first_n` messages end inside the answers of parallel calls.
-/

namespace AgentRoom

open Exchange

/-- A message as a part of a tool exchange: an AI message with tool calls asks for one answer
to each of them. -/
def Message.kind : Message → Kind String
  | .system _ => .plain
  | .human _ => .plain
  | .ai m => if m.toolCalls.isEmpty then .plain else .request (m.toolCalls.map ToolCall.id)
  | .tool m => .answer m.toolCallId

/-- Every AI message with tool calls is followed at once by tool messages that answer each of
its calls exactly once, and there is no other tool message. -/
abbrev LegalTranscript (ms : List Message) : Prop := Legal Message.kind ms

namespace Message

@[simp]
theorem isAnswer_kind (m : Message) : m.kind.isAnswer = m.isTool := by
  cases m with
  | system t => rfl
  | human t => rfl
  | ai m =>
      rw [kind]
      split <;> rfl
  | tool m => rfl

/-- What is neither a tool message nor a tool call is plain. -/
theorem kind_eq_plain {m : Message} (hcalls : m.isAiWithToolCalls = false)
    (htool : m.isTool = false) : m.kind = .plain := by
  cases m with
  | system t => rfl
  | human t => rfl
  | ai m =>
      have hempty : m.toolCalls.isEmpty = true := by simpa [isAiWithToolCalls] using hcalls
      rw [kind, if_pos hempty]
  | tool m => cases htool

theorem isTool_of_isAiWithToolCalls {m : Message} (h : m.isAiWithToolCalls = true) :
    m.isTool = false := by
  cases m with
  | ai m => rfl
  | system t => cases h
  | human t => cases h
  | tool m => cases h

end Message

theorem kind_buildMarker (e : ContextEngine) (middle : List Message) :
    (e.buildMarker middle).kind = .plain := by
  cases e with
  | windowed e => rfl
  | summary e summarize => rfl

/-- **Where the head of a legal list is cut.** The message after the head is a tool message
exactly when the cut after the first `protect_first_n` messages has tool messages on both
sides. -/
theorem head_next_isTool (e : WindowedContextEngine) {ms : List Message}
    (hl : LegalTranscript ms) :
    (ms.drop (e.head ms).length).head?.any Message.isTool =
      splitsAnswers e.protectFirstN ms := by
  rcases List.eq_nil_or_concat (ms.take e.protectFirstN) with hnil | ⟨l, a, hcut⟩
  · have hhead : e.head ms = [] := by
      rw [WindowedContextEngine.head, hnil, List.rdropWhile_nil]
    have hfirst : ms.head?.any Message.isTool = false := by
      cases ms with
      | nil => rfl
      | cons m ms => simpa using hl.head_not_answer m rfl
    rw [hhead, splitsAnswers, hnil]
    exact hfirst
  · rw [List.concat_eq_append] at hcut
    have hlast : (ms.take e.protectFirstN).getLast? = some a := by
      rw [hcut, List.getLast?_concat]
    by_cases ha : a.isAiWithToolCalls = true
    · -- the head loses its trailing calls, and what follows it starts with one of them
      have hne : (ms.take e.protectFirstN).rtakeWhile Message.isAiWithToolCalls ≠ [] := by
        rw [hcut, List.rtakeWhile_concat_pos _ _ _ ha]
        simp
      obtain ⟨b, r, hbr⟩ := List.exists_cons_of_ne_nil hne
      have hb : b.isAiWithToolCalls = true :=
        List.mem_rtakeWhile_imp (l := ms.take e.protectFirstN) (by rw [hbr]; simp)
      have hms : e.head ms ++ (b :: r ++ ms.drop e.protectFirstN) = ms := by
        rw [← hbr, ← List.append_assoc, WindowedContextEngine.head,
          List.rdropWhile_append_rtakeWhile, List.take_append_drop]
      have hdrop : ms.drop (e.head ms).length = b :: r ++ ms.drop e.protectFirstN :=
        drop_length_of_append hms
      rw [hdrop, splitsAnswers, hlast]
      simp [Message.isTool_of_isAiWithToolCalls ha, Message.isTool_of_isAiWithToolCalls hb]
    · -- the head is kept as it was cut
      have hhead : e.head ms = ms.take e.protectFirstN := by
        rw [WindowedContextEngine.head, hcut, List.rdropWhile_concat_neg _ _ _ ha]
      have hms : l ++ a :: ms.drop e.protectFirstN = ms := by
        rw [List.append_cons, ← hcut, List.take_append_drop]
      have hdrop : ms.drop (e.head ms).length = ms.drop e.protectFirstN := by
        rw [hhead]
        exact drop_length_of_append (List.take_append_drop _ _)
      rw [hdrop, splitsAnswers, hlast]
      cases htool : a.isTool with
      | true => simp [htool]
      | false =>
          rw [Option.any_some, htool, Bool.false_and]
          have hplain := Message.kind_eq_plain (Bool.eq_false_iff.mpr ha) htool
          cases hnext : ms.drop e.protectFirstN with
          | nil => rfl
          | cons b r =>
              rw [hnext] at hms
              rw [← hms] at hl
              simpa using hl.not_answer_after_plain hplain

/-- A list cut inside a group of answers has something to omit. -/
theorem middle_ne_nil_of_splitsAnswers (count : Message → Nat) (e : WindowedContextEngine)
    {ms : List Message} (hl : LegalTranscript ms) (hs : e.shouldCompress count ms = true)
    (hsplit : splitsAnswers e.protectFirstN ms = true) :
    (e.partition count ms).middle ≠ [] := by
  intro hnil
  have hrest := e.middle_append_tail count ms hs
  rw [hnil, List.nil_append] at hrest
  rw [← head_next_isTool e hl, ← hrest] at hsplit
  -- without a middle the tail would start with the tool message after the cut
  cases htail : e.tail count ms with
  | nil => rw [htail] at hsplit; cases hsplit
  | cons m r =>
      have hm := e.tail_head_not_tool count ms m (by rw [htail]; rfl)
      rw [htail] at hsplit
      simp [hm] at hsplit

variable (count : Message → Nat)

/-- Compressing a legal list over the budget. -/
theorem compress_legal_of_shouldCompress (e : ContextEngine) {ms : List Message}
    (hl : LegalTranscript ms) (hs : e.base.shouldCompress count ms = true) :
    LegalTranscript (e.compress count ms) ↔
      splitsAnswers e.base.protectFirstN ms = false := by
  have hcut : LegalTranscript (e.base.head ms ++
      ((e.base.partition count ms).middle ++ e.base.tail count ms)) := by
    rw [e.base.partition_append count ms hs]
    exact hl
  have htail : ∀ m ∈ (e.base.tail count ms).head?, m.kind.isAnswer = false := by
    intro m hm
    rw [Message.isAnswer_kind]
    exact e.base.tail_head_not_tool count ms m hm
  by_cases hnil : (e.base.partition count ms).middle = []
  · have hno : splitsAnswers e.base.protectFirstN ms = false := by
      by_contra h
      exact middle_ne_nil_of_splitsAnswers count e.base hl hs
        (by simpa using h) hnil
    rw [ContextEngine.compress_of_middle_eq_nil hnil]
    exact ⟨fun _ => hno, fun _ => hl⟩
  -- The marker is a plain message, so only the end of the head can lose its answers.
  · rw [ContextEngine.compress_of_middle_ne_nil hs hnil, LegalTranscript,
      hcut.elide_iff (kind_buildMarker e _) htail, e.base.middle_append_tail count ms hs,
      ← head_next_isTool e.base hl]
    simp only [Message.isAnswer_kind]
    cases (ms.drop (e.base.head ms).length).head? <;> simp

/-- **Compression keeps a legal list legal unless it cuts inside parallel answers.** -/
theorem compression_legal_iff (e : ContextEngine) {ms : List Message}
    (hl : LegalTranscript ms) :
    LegalTranscript (e.compress count ms) ∧ LegalTranscript (e.apply count ms) ↔
      ¬ (e.base.shouldCompress count ms = true ∧
        splitsAnswers e.base.protectFirstN ms = true) := by
  rw [e.apply_eq_compress, and_self]
  by_cases hs : e.base.shouldCompress count ms = true
  · rw [compress_legal_of_shouldCompress count e hl hs]
    simp [hs]
  · rw [ContextEngine.compress_of_le hs]
    exact ⟨fun _ h => hs h.1, fun _ => hl⟩

/-! ## Two parallel reads -/

def parallelReads : List Message :=
  .system "sys" ::
    .ai { content := .str "", toolCalls := [⟨"read_text", [], "a"⟩, ⟨"read_text", [], "b"⟩] } ::
    ([.tool { content := .str "one", toolCallId := "a" },
      .tool { content := .str "two", toolCallId := "b" }] ++
    [.human "go on", .ai { content := .str "done" }])

theorem parallelReads_legal : LegalTranscript parallelReads :=
  .plain rfl (.group rfl (.refl _) (.plain rfl (.plain rfl .nil)))

/-- Five messages: `protectFirstN` at the start, one at the end and the marker. -/
def fiveMessages (protectFirstN : Nat) (h : protectFirstN ≤ 3) : WindowedContextEngine :=
  ⟨.maxMessages 5, protectFirstN, 1, by unfold ContextBudget.Admits; omega, .double⟩

/-- A head that ends with the call is repaired. -/
theorem compression_legal_after_call :
    LegalTranscript ((ContextEngine.windowed (fiveMessages 2 (by decide))).compress
        (countMessageTokens estimatedTokens) parallelReads) ∧
      LegalTranscript ((ContextEngine.windowed (fiveMessages 2 (by decide))).apply
        (countMessageTokens estimatedTokens) parallelReads) :=
  (compression_legal_iff (countMessageTokens estimatedTokens)
    (.windowed (fiveMessages 2 (by decide))) parallelReads_legal).mpr (by decide)

/-- **A head that ends between two answers is not.** The call of the second answer stays, the
answer does not. -/
theorem parallel_answers_separated :
    WindowedContextEngine.init
        { maxMessages := some 5, protectFirstN := 3, protectLastN := 1 } =
      .ok (fiveMessages 3 (by decide)) ∧
    LegalTranscript parallelReads ∧
    (ContextEngine.windowed (fiveMessages 3 (by decide))).compress
        (countMessageTokens estimatedTokens) parallelReads =
      parallelReads.take 3 ++
        [.human "[context truncated: 2 messages omitted]", .ai { content := .str "done" }] ∧
    ¬ (LegalTranscript ((ContextEngine.windowed (fiveMessages 3 (by decide))).compress
        (countMessageTokens estimatedTokens) parallelReads) ∧
      LegalTranscript ((ContextEngine.windowed (fiveMessages 3 (by decide))).apply
        (countMessageTokens estimatedTokens) parallelReads)) := by
  refine ⟨rfl, parallelReads_legal, rfl, ?_⟩
  rintro ⟨hc, -⟩
  have hsplit := (compress_legal_of_shouldCompress _ _ parallelReads_legal rfl).mp hc
  exact absurd hsplit (by decide)

end AgentRoom
