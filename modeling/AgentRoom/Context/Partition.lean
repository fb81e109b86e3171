import AgentRoom.Context.Engine

set_option autoImplicit false

/-! # What a compression keeps

Over its budget an engine splits the list into head, middle and tail without losing a message
or keeping one twice (`WindowedContextEngine.partition_append`). The tail never starts with a
tool message. The message after the head is a tool message only when the head was cut right
before it.
-/

namespace AgentRoom

variable (count : Message → Nat)

/-- The greedy loop keeps a suffix of what it is given. -/
theorem growTail_suffix (budget : Int) (rest tail : List Message) (used : Nat) :
    growTail count budget rest tail used <:+ rest.reverse ++ tail := by
  induction rest generalizing tail used with
  | nil => exact List.suffix_rfl
  | cons msg rest ih =>
      rw [growTail]
      split
      · exact List.suffix_append _ _
      · rw [List.reverse_cons, List.append_assoc, List.singleton_append]
        exact ih _ _

@[simp]
theorem countTokens_nil : countTokens count [] = 0 := rfl

@[simp]
theorem countTokens_cons (m : Message) (ms : List Message) :
    countTokens count (m :: ms) = count m + countTokens count ms := by
  simp [countTokens]

@[simp]
theorem countTokens_append (xs ys : List Message) :
    countTokens count (xs ++ ys) = countTokens count xs + countTokens count ys := by
  simp [countTokens]

theorem countTokens_le_of_suffix {xs ys : List Message} (h : xs <:+ ys) :
    countTokens count xs ≤ countTokens count ys := by
  obtain ⟨zs, rfl⟩ := h
  rw [countTokens_append]
  exact Nat.le_add_left _ _

/-- What the greedy loop may keep: the newest message alone, or messages within the budget. -/
def FitsTail (budget : Int) (ms : List Message) : Prop :=
  ms.length ≤ 1 ∨ (countTokens count ms : Int) ≤ budget

/-- What the greedy loop keeps fits. -/
theorem growTail_fits (budget : Int) (rest tail : List Message) (used : Nat)
    (hused : used = countTokens count tail) (hfits : FitsTail count budget tail) :
    FitsTail count budget (growTail count budget rest tail used) := by
  induction rest generalizing tail used with
  | nil => exact hfits
  | cons msg rest ih =>
      rw [growTail]
      split
      · exact hfits
      · rename_i hgo
        have hnext : used + count msg = countTokens count (msg :: tail) := by
          rw [countTokens_cons, hused]
          omega
        refine ih (msg :: tail) (used + count msg) hnext ?_
        by_cases htail : tail = []
        · exact Or.inl (by rw [htail]; simp)
        · have hle : ¬ budget < used + count msg := fun hlt => hgo ⟨htail, hlt⟩
          exact Or.inr (by rw [← hnext]; push_cast; omega)

/-- The greedy loop keeps whatever fits. -/
theorem growTail_maximal (budget : Int) (rest tail kept : List Message) (used : Nat)
    (hused : used = countTokens count tail) (hkept : kept <:+ rest.reverse ++ tail)
    (hfits : FitsTail count budget kept) :
    kept <:+ growTail count budget rest tail used := by
  induction rest generalizing tail used with
  | nil => exact hkept
  | cons msg rest ih =>
      have hmsg : (msg :: rest).reverse ++ tail = rest.reverse ++ (msg :: tail) := by simp
      rw [hmsg] at hkept
      rw [growTail]
      split
      · rename_i hstop
        obtain ⟨htail, hlt⟩ := hstop
        have hsuffix : tail <:+ rest.reverse ++ (msg :: tail) :=
          (List.suffix_cons msg tail).trans (List.suffix_append _ _)
        rcases le_or_gt kept.length tail.length with hlen | hlen
        · exact List.suffix_of_suffix_length_le hkept hsuffix hlen
        · -- one message more than the tail is over the budget
          have hmore : msg :: tail <:+ kept :=
            List.suffix_of_suffix_length_le (List.suffix_append _ _) hkept
              (by rw [List.length_cons]; omega)
          have htokens := countTokens_le_of_suffix count hmore
          rw [countTokens_cons] at htokens
          have hpos := List.length_pos_of_ne_nil htail
          rcases hfits with hone | hle
          · omega
          · omega
      · have hnext : used + count msg = countTokens count (msg :: tail) := by
          rw [countTokens_cons, hused]
          omega
        exact ih (msg :: tail) (used + count msg) hnext hkept

/-- What a prefix leaves. -/
theorem drop_length_of_append {α : Type*} {h r l : List α} (hl : h ++ r = l) :
    l.drop h.length = r := by
  rw [← hl, List.drop_left]

/-- The slice between a prefix and a suffix. -/
theorem slice_middle {α : Type*} (h mid t : List α) :
    ((h ++ (mid ++ t)).take ((h ++ (mid ++ t)).length - t.length)).drop h.length = mid := by
  have hlen : (h ++ (mid ++ t)).length - t.length = (h ++ mid).length := by
    simp only [List.length_append]
    omega
  rw [hlen, ← List.append_assoc, List.take_left, List.drop_left]

namespace WindowedContextEngine

variable (e : WindowedContextEngine) (ms : List Message)

theorem lastMessages_suffix (n : Nat) : lastMessages n ms <:+ ms := by
  unfold lastMessages
  split
  · exact List.drop_suffix _ _
  · exact List.nil_suffix

theorem length_lastMessages_le (n : Nat) : (lastMessages n ms).length ≤ n := by
  unfold lastMessages
  split
  · rw [List.length_drop]
    omega
  · exact Nat.zero_le _

theorem head_isPrefix : e.head ms <+: ms :=
  (List.rdropWhile_prefix _ _).trans (List.take_prefix _ _)

theorem length_head_le : (e.head ms).length ≤ e.protectFirstN :=
  (List.rdropWhile_prefix _ _).length_le.trans (List.length_take_le _ _)

theorem tail_suffix_protectedTail : e.tail count ms <:+ e.protectedTail count ms :=
  List.dropWhile_suffix _

/-- The tail does not start with a tool message. -/
theorem tail_head_not_tool : ∀ m ∈ (e.tail count ms).head?, m.isTool = false := by
  intro m hm
  have h := List.head?_dropWhile_not Message.isTool (e.protectedTail count ms)
  rw [Option.mem_def] at hm
  rw [tail] at hm
  rw [hm] at h
  exact h

theorem protectedTail_of_maxMessages {n : Int} (hb : e.budget = .maxMessages n) :
    e.protectedTail count ms = lastMessages e.protectLastN ms := by
  rw [protectedTail, hb]

theorem protectedTail_suffix_of_maxTokens {n : Int} {r : ℚ} (hb : e.budget = .maxTokens n r) :
    e.protectedTail count ms <:+ ms.drop (e.head ms).length := by
  rw [protectedTail, hb]
  have h := growTail_suffix count
    (e.share (n - countTokens count (e.head ms)) r)
    (ms.drop (e.head ms).length).reverse [] 0
  rwa [List.reverse_reverse, List.append_nil] at h

/-- Over the budget, the tail is taken from what the head leaves. -/
theorem tail_suffix_rest (hs : e.shouldCompress count ms = true) :
    e.tail count ms <:+ ms.drop (e.head ms).length := by
  refine (e.tail_suffix_protectedTail count ms).trans ?_
  cases hb : e.budget with
  | maxMessages n =>
      -- the budget leaves room for both protected bands, so they do not overlap
      have hlen : n < ms.length := by simpa [shouldCompress, hb] using hs
      have hroom : (e.protectFirstN : Int) + e.protectLastN + 1 ≤ n := by
        have := e.admits
        rwa [hb] at this
      have hhead := e.length_head_le ms
      have hlast := length_lastMessages_le ms e.protectLastN
      rw [protectedTail_of_maxMessages count e ms hb]
      refine List.suffix_of_suffix_length_le (lastMessages_suffix ms e.protectLastN)
        (List.drop_suffix _ _) ?_
      rw [List.length_drop]
      omega
  | maxTokens n r => exact protectedTail_suffix_of_maxTokens count e ms hb

/-- **Nothing is lost and nothing is kept twice.** -/
theorem partition_append (hs : e.shouldCompress count ms = true) :
    e.head ms ++ ((e.partition count ms).middle ++ e.tail count ms) = ms := by
  obtain ⟨mid, hmid⟩ := e.tail_suffix_rest count ms hs
  have hms : e.head ms ++ (mid ++ e.tail count ms) = ms := by
    rw [hmid]
    conv_rhs => rw [← List.take_append_drop (e.head ms).length ms]
    rw [← List.prefix_iff_eq_take.mp (e.head_isPrefix ms)]
  have hslice := slice_middle (e.head ms) mid (e.tail count ms)
  rw [hms] at hslice
  have hmiddle : (e.partition count ms).middle = mid := hslice
  rw [hmiddle]
  exact hms

/-- What follows the head. -/
theorem middle_append_tail (hs : e.shouldCompress count ms = true) :
    (e.partition count ms).middle ++ e.tail count ms = ms.drop (e.head ms).length :=
  (drop_length_of_append (e.partition_append count ms hs)).symm

end WindowedContextEngine

namespace ContextEngine

variable {count} {e : ContextEngine} {ms : List Message}

theorem compress_of_le (hs : ¬ e.base.shouldCompress count ms = true) :
    e.compress count ms = ms := by
  rw [compress, if_pos (by simpa using hs)]

theorem compress_of_middle_eq_nil (hm : (e.base.partition count ms).middle = []) :
    e.compress count ms = ms := by
  rw [compress]
  simp only [hm, List.isEmpty_nil, ↓reduceIte, ite_self]

theorem compress_of_middle_ne_nil (hs : e.base.shouldCompress count ms = true)
    (hm : (e.base.partition count ms).middle ≠ []) :
    e.compress count ms = e.base.head ms ++
      e.buildMarker (e.base.partition count ms).middle :: e.base.tail count ms := by
  have hne : ¬ (e.base.partition count ms).middle.isEmpty = true := by
    rwa [List.isEmpty_iff]
  rw [compress, hs]
  simp only [Bool.not_true, Bool.false_eq_true, ↓reduceIte, hne]
  rw [List.append_assoc, List.singleton_append]
  rfl

/-- Compression invents no tool message. -/
theorem tool_mem_of_mem_apply {t : ToolMessage} (h : .tool t ∈ e.apply count ms) :
    .tool t ∈ ms := by
  rw [apply_eq_compress] at h
  by_cases hs : e.base.shouldCompress count ms = true
  · by_cases hm : (e.base.partition count ms).middle = []
    · rwa [compress_of_middle_eq_nil hm] at h
    · rw [compress_of_middle_ne_nil hs hm] at h
      rcases List.mem_append.mp h with h | h
      · exact (e.base.head_isPrefix ms).subset h
      · rcases List.mem_cons.mp h with h | h
        · unfold buildMarker at h
          split at h <;> cases h
        · exact List.mem_of_mem_drop ((e.base.tail_suffix_rest count ms hs).subset h)
  · rwa [compress_of_le hs] at h

end ContextEngine

/-- The first `n` messages end with a tool message and the next one is a tool message too. -/
def splitsAnswers (n : Nat) (ms : List Message) : Bool :=
  (ms.take n).getLast?.any Message.isTool && (ms.drop n).head?.any Message.isTool

end AgentRoom
