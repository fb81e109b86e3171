import AgentRoom.Tools.Spill
import Mathlib.Algebra.Order.Ring.Nat

set_option autoImplicit false

/-! # How long a tool message is after spilling

A placeholder has 59 characters of its own, besides the reference, the size twice, the length of
the preview and the preview; with a reference of twelve and a size of sixty digits it stays under
600. What is not replaced is either under the threshold or begins like a placeholder, and of
those that begin so nothing limits the length.
-/

namespace AgentRoom.Spill

open PyStr

/-! ## The length of a placeholder -/

@[simp] theorem length_lit (s : String) : (lit s).length = s.toList.length := List.length_map ..

theorem length_formatPlaceholder (ref : PyStr) (size : Int) (preview : PyStr) :
    (formatPlaceholder ref size preview).length =
      59 + ref.length + 2 * (ofInt size).length + (ofInt preview.length).length +
        preview.length := by
  have hbracket : refBracket.length = 7 := rfl
  have hsize : (lit " size=").length = 6 := rfl
  have hpreview : (lit "] output spilled to store; preview (").length = 36 := rfl
  have hslash : (lit "/").length = 1 := rfl
  have hchars : (lit " chars):\n").length = 9 := rfl
  unfold formatPlaceholder
  simp only [List.length_append, hbracket, hsize, hpreview, hslash, hchars]
  omega

theorem length_makePreview_le (body : PyStr) : (makePreview body).length ≤ previewChars := by
  have htake : (body.take previewChars).length ≤ previewChars := List.length_take_le _ _
  unfold makePreview
  by_cases hlen : body.length ≤ previewChars
  · rw [if_pos hlen]
    exact hlen
  · rw [if_neg hlen]
    simp only
    split
    · exact (List.length_take_le' _ _).trans htake
    · exact htake

/-- The decimal digits of a number below `10 ^ k`. -/
theorem length_ofInt_le {n k : Nat} (hk : 0 < k) (h : n < 10 ^ k) : (ofInt n).length ≤ k := by
  have hrepr : (ofInt n).length = n.repr.length := by
    rw [ofInt, length_lit, String.length_toList]
    rfl
  rw [hrepr]
  exact (Nat.length_repr_le_iff hk).mpr h

/-! ## What a call returns -/

section Bound

variable {σ ρ : Type*} {store : SpillStore σ} {threshold : Int}

/-- At most `max(threshold, 600)` characters. -/
def WithinBound (threshold : Int) (body : PyStr) : Prop := body.length ≤ max threshold 600

/-- Every tool message of a list is within the bound. -/
def AllWithinBound (threshold : Int) (messages : List (Message ρ)) : Prop :=
  ∀ m, .tool m ∈ messages → WithinBound threshold (stringify m.content)

/-- Every tool output that begins like a placeholder is within the bound. -/
def LookalikesWithinBound (threshold : Int) (messages : List (Message ρ)) : Prop :=
  ∀ m, .tool m ∈ messages → looksLikePlaceholder (stringify m.content) = true →
    WithinBound threshold (stringify m.content)

/-- There is room for the placeholder with this reference and size. -/
def HasRoom (threshold : Int) (body : PyStr) (r : SpillRef) : Prop :=
  ((59 + r.ref.length + 2 * (ofInt r.size).length + (ofInt (makePreview body).length).length +
    (makePreview body).length : Nat) : Int) ≤ max threshold 600

/-- The references a store answers with when some bodies are put in order. -/
def SpillStore.answers (store : SpillStore σ) (s : σ) : List PyStr → List SpillRef
  | [] => []
  | body :: bodies => (store.put s body).1 :: store.answers (store.put s body).2 bodies

theorem allWithinBound_tool (m : ToolMessage) (rest : List (Message ρ)) :
    AllWithinBound threshold (.tool m :: rest) ↔
      WithinBound threshold (stringify m.content) ∧ AllWithinBound threshold rest := by
  simp [AllWithinBound]

theorem allWithinBound_other (m : ρ) (rest : List (Message ρ)) :
    AllWithinBound threshold (.other m :: rest) ↔ AllWithinBound threshold rest := by
  simp [AllWithinBound]

theorem lookalikesWithinBound_tool (m : ToolMessage) (rest : List (Message ρ)) :
    LookalikesWithinBound threshold (.tool m :: rest) ↔
      (looksLikePlaceholder (stringify m.content) = true →
        WithinBound threshold (stringify m.content)) ∧ LookalikesWithinBound threshold rest := by
  simp [LookalikesWithinBound]

theorem lookalikesWithinBound_other (m : ρ) (rest : List (Message ρ)) :
    LookalikesWithinBound threshold (.other m :: rest) ↔ LookalikesWithinBound threshold rest := by
  simp [LookalikesWithinBound]

theorem withinBound_placeholderMessage_iff (r : SpillRef) (m : ToolMessage) :
    WithinBound threshold (stringify (placeholderMessage r m).content) ↔
      HasRoom threshold (stringify m.content) r := by
  show ((formatPlaceholder r.ref r.size (makePreview (stringify m.content))).length : Int) ≤ _ ↔ _
  rw [length_formatPlaceholder]
  rfl

/-- A message that is kept is within the bound unless it begins like a placeholder. -/
theorem withinBound_of_none_iff {m : ToolMessage} (h : spilledBody threshold m = none) :
    WithinBound threshold (stringify m.content) ↔
      (looksLikePlaceholder (stringify m.content) = true →
        WithinBound threshold (stringify m.content)) := by
  constructor
  · intro hbound _
    exact hbound
  · intro himp
    by_cases hlook : looksLikePlaceholder (stringify m.content) = true
    · exact himp hlook
    · have hlen : ¬ threshold < (stringify m.content).length := by
        intro hlen
        have hsome := spilledBody_eq_some_iff.mpr ⟨rfl, hlen, Bool.eq_false_iff.mpr hlook⟩
        rw [h] at hsome
        cases hsome
      exact (not_lt.mp hlen).trans (le_max_left _ _)

/-- **Every store.** -/
theorem allWithinBound_spillMessages_iff (s : σ) (messages : List (Message ρ)) :
    AllWithinBound threshold (spillMessages store threshold s messages).1 ↔
      LookalikesWithinBound threshold messages ∧
        ∀ p ∈ (spilledBodies threshold messages).zip
          (store.answers s (spilledBodies threshold messages)), HasRoom threshold p.1 p.2 := by
  induction messages generalizing s with
  | nil =>
      constructor
      · intro _
        exact ⟨fun m hm => (by cases hm), fun p hp => (by cases hp)⟩
      · intro _ m hm
        cases hm
  | cons msg rest ih =>
      cases msg with
      | other m =>
          simp only [spillMessages, allWithinBound_other, lookalikesWithinBound_other,
            spilledBodies_other]
          exact ih s
      | tool m =>
          simp only [spillMessages, allWithinBound_tool, lookalikesWithinBound_tool, ih]
          cases hbody : spilledBody threshold m with
          | none =>
              rw [spilledBodies_tool_of_none rest hbody, maybeSpill_of_none s hbody, and_assoc]
              exact and_congr_left fun _ => withinBound_of_none_iff hbody
          | some body =>
              obtain ⟨rfl, -, hlook⟩ := spilledBody_eq_some_iff.mp hbody
              rw [spilledBodies_tool_of_some rest hbody, maybeSpill_of_some s hbody,
                withinBound_placeholderMessage_iff]
              simp only [SpillStore.answers, List.zip_cons_cons, List.forall_mem_cons, hlook,
                Bool.false_eq_true, false_implies, true_and]
              exact and_left_comm

/-- A store whose references have at most twelve characters and whose sizes are right. -/
def SpillStore.AnswersBriefly (store : SpillStore σ) : Prop :=
  ∀ s body, (store.put s body).1.ref.length ≤ refHashLen ∧ (store.put s body).1.size = body.length

theorem inMemory_answersBriefly (sha256 : List UInt8 → Digest) :
    (inMemory sha256).AnswersBriefly :=
  fun _ _ => ⟨List.length_take_le _ _, rfl⟩

theorem SpillStore.AnswersBriefly.hasRoom (h : store.AnswersBriefly) (s : σ) {body : PyStr}
    (hlen : body.length < 10 ^ 60) : HasRoom threshold body (store.put s body).1 := by
  obtain ⟨href, hsize⟩ := h s body
  have hpreview := length_makePreview_le body
  have hdigits : (ofInt (store.put s body).1.size).length ≤ 60 := by
    rw [hsize]
    exact length_ofInt_le (by decide) hlen
  have hpreviewDigits : (ofInt (makePreview body).length).length ≤ 3 := by
    refine length_ofInt_le (by decide) (hpreview.trans_lt ?_)
    decide
  have hmax : (600 : Int) ≤ max threshold 600 := le_max_right _ _
  have hrefLen : refHashLen = 12 := rfl
  have hpreviewLen : previewChars = 400 := rfl
  unfold HasRoom
  omega

/-- A store that answers briefly has room for every placeholder. -/
theorem SpillStore.AnswersBriefly.answers_hasRoom (h : store.AnswersBriefly) (s : σ)
    {bodies : List PyStr} (hlen : ∀ body ∈ bodies, body.length < 10 ^ 60) :
    ∀ p ∈ bodies.zip (store.answers s bodies), HasRoom threshold p.1 p.2 := by
  induction bodies generalizing s with
  | nil =>
      intro p hp
      cases hp
  | cons body bodies ih =>
      intro p hp
      rcases List.mem_cons.mp hp with rfl | hp
      · exact h.hasRoom s (hlen body List.mem_cons_self)
      · exact ih _ (fun b hb => hlen b (List.mem_cons_of_mem _ hb)) p hp

end Bound

/-- **Spilling bounds the tool messages** exactly when no tool output over the bound begins like
a placeholder and the store's references leave room for the placeholders, which those of a store
that answers briefly always do. -/
theorem spilling_bounds_iff {σ ρ : Type*} (store : SpillStore σ) (threshold : Int) (s : σ)
    (messages : List (Message ρ)) :
    (AllWithinBound threshold (spillMessages store threshold s messages).1 ↔
      LookalikesWithinBound threshold messages ∧
        ∀ p ∈ (spilledBodies threshold messages).zip
          (store.answers s (spilledBodies threshold messages)), HasRoom threshold p.1 p.2) ∧
    (store.AnswersBriefly → (∀ m, .tool m ∈ messages → (stringify m.content).length < 10 ^ 60) →
      (AllWithinBound threshold (spillMessages store threshold s messages).1 ↔
        LookalikesWithinBound threshold messages)) := by
  refine ⟨allWithinBound_spillMessages_iff s messages, ?_⟩
  intro hbrief hlen
  have hbodies : ∀ body ∈ spilledBodies threshold messages, body.length < 10 ^ 60 := by
    intro body hbody
    obtain ⟨m, hm, hsome⟩ := mem_spilledBodies.mp hbody
    obtain ⟨rfl, -⟩ := spilledBody_eq_some_iff.mp hsome
    exact hlen m hm
  rw [allWithinBound_spillMessages_iff]
  exact and_iff_left (hbrief.answers_hasRoom s hbodies)

/-! ## An output that begins like a placeholder -/

/-- A tool output that begins like a placeholder. -/
def lookalike : PyStr := refBracket ++ List.replicate 600 (codePoint 'x')

def lookalikeMessage : ToolMessage where
  content := .str lookalike
  toolCallId := lit "c1"

theorem looksLikePlaceholder_lookalike : looksLikePlaceholder lookalike = true := by
  rw [looksLikePlaceholder, List.isPrefixOf_iff_prefix]
  exact List.prefix_append _ _

/-- **It passes through at full length**, whatever the hash. -/
theorem lookalike_unbounded :
    lookalike.length = 607 ∧
    ∀ sha256, ¬ AllWithinBound 0
      (spillMessages (inMemory sha256) 0 {} [(.tool lookalikeMessage : Message Unit)]).1 := by
  have hbracket : refBracket.length = 7 := rfl
  have hlen : lookalike.length = 607 := by
    rw [lookalike, List.length_append, List.length_replicate, hbracket]
  refine ⟨hlen, fun sha256 hall => ?_⟩
  rw [allWithinBound_spillMessages_iff] at hall
  have hbound := hall.1 lookalikeMessage List.mem_cons_self looksLikePlaceholder_lookalike
  have hle : ((lookalike.length : Nat) : Int) ≤ max 0 600 := hbound
  rw [hlen] at hle
  exact absurd hle (by decide)

end AgentRoom.Spill
