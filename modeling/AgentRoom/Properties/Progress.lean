import AgentRoom.Context.Tokens
import AgentRoom.Properties.CompressionShape

set_option autoImplicit false

/-! # Compressing makes a list cheaper

An engine leaves a list alone when there is nothing to drop, so as not to add a marker for
nothing. A marker has a cost of its own, though: when the middle is cheaper than the message
that stands for it, the compressed list costs more than the list it is made from.
-/

namespace AgentRoom

variable (count : Message → Nat)

/-- Putting one message in the place of others, compared by cost. -/
theorem countTokens_replace_lt_iff (H M T : List Message) (m : Message) :
    countTokens count (H ++ [m] ++ T) < countTokens count (H ++ M ++ T) ↔
      count m < countTokens count M := by
  simp only [countTokens_append, countTokens_cons, countTokens_nil]
  omega

/-- The list stays the same only when it already holds that message there. -/
theorem replace_eq_self_iff {α : Type*} (H M T : List α) (m : α) :
    H ++ [m] ++ T = H ++ M ++ T ↔ M = [m] := by
  rw [List.append_left_inj, List.append_right_inj]
  exact eq_comm

/-- A middle that a windowed engine may drop without the list getting more expensive: none at
all, one truncation marker for a single message, or messages that cost more than the marker. -/
def Worthwhile (middle : List Message) : Prop :=
  middle = [] ∨ middle = [.human (truncatedText 1)] ∨
    count (.human (truncatedText middle.length)) < countTokens count middle

/-- One pass of a windowed engine over a list that is over its budget. -/
theorem progress_iff_of_split {e : WindowedContextEngine} {ms H M T : List Message}
    (hs : e.shouldCompress count ms = true) (hsplit : IsSplit count e ms H M T) :
    ((ContextEngine.windowed e).compress count ms = ms ∨
      countTokens count ((ContextEngine.windowed e).compress count ms) < countTokens count ms) ↔
      Worthwhile count M := by
  obtain ⟨hH, hM, hT⟩ := hsplit.eq_partition count e ms hs
  have hms : ms = H ++ M ++ T := hsplit.append.symm
  by_cases hnil : M = []
  · have hsame : (ContextEngine.windowed e).compress count ms = ms :=
      ContextEngine.compress_of_middle_eq_nil (by rw [← hnil, hM]; rfl)
    exact iff_of_true (Or.inl hsame) (Or.inl hnil)
  · have hne : (e.partition count ms).middle ≠ [] := by rwa [← hM]
    have hcompress : (ContextEngine.windowed e).compress count ms =
        H ++ [.human (truncatedText M.length)] ++ T := by
      have h := ContextEngine.compress_of_middle_ne_nil (e := .windowed e) hs hne
      rw [h, hH, hM, hT, List.append_assoc, List.singleton_append]
      rfl
    rw [hcompress]
    conv_lhs => rw [hms]
    rw [replace_eq_self_iff, countTokens_replace_lt_iff]
    constructor
    · rintro (hsame | hless)
      · -- only a marker for one message can be its own replacement
        have hone : M.length = 1 := by rw [hsame]; rfl
        rw [hone] at hsame
        exact Or.inr (Or.inl hsame)
      · exact Or.inr (Or.inr hless)
    · rintro (h | hsame | hless)
      · exact absurd h hnil
      · left
        rw [hsame]
        rfl
      · exact Or.inr hless

/-- **When token compression makes progress.** A list over the token budget is left as it is or
gets cheaper exactly when what stands between its protected parts is worth dropping. -/
theorem token_compression_progress_iff (tok : Tokenizer) (e : WindowedContextEngine) {n : Int}
    {r : ℚ} (hb : e.budget = .maxTokens n r) (ms : List Message)
    (hover : n < countTokens (countMessageTokens tok) ms) :
    ((ContextEngine.windowed e).compress (countMessageTokens tok) ms = ms ∨
      countTokens (countMessageTokens tok)
          ((ContextEngine.windowed e).compress (countMessageTokens tok) ms) <
        countTokens (countMessageTokens tok) ms) ↔
      ∃ H M T, IsSplit (countMessageTokens tok) e ms H M T ∧
        Worthwhile (countMessageTokens tok) M := by
  have hs : e.shouldCompress (countMessageTokens tok) ms = true := by
    simpa [WindowedContextEngine.shouldCompress, hb] using hover
  constructor
  · intro hprogress
    have hsplit := partition_isSplit (countMessageTokens tok) e ms hs
    exact ⟨_, _, _, hsplit, (progress_iff_of_split _ hs hsplit).mp hprogress⟩
  · rintro ⟨H, M, T, hsplit, hworth⟩
    exact (progress_iff_of_split _ hs hsplit).mpr hworth

/-! ## A short conversation -/

/-- A budget of seven tokens. -/
def sevenTokens : WindowedContextEngine :=
  ⟨.maxTokens 7 (1 / 2), 0, 6, ContextBudget.admits_half 7 0 6, .double⟩

def twoGreetings : List Message := [.human "hi", .human "ok"]

/-- A long first message is worth dropping. -/
theorem long_first_message_progress :
    (ContextEngine.windowed sevenTokens).compress (countMessageTokens estimatedTokens)
        (.human (String.ofList (List.replicate 60 'a')) :: twoGreetings) =
      .human (String.ofList (List.replicate 60 'a')) :: twoGreetings ∨
    countTokens (countMessageTokens estimatedTokens)
        ((ContextEngine.windowed sevenTokens).compress (countMessageTokens estimatedTokens)
          (.human (String.ofList (List.replicate 60 'a')) :: twoGreetings)) <
      countTokens (countMessageTokens estimatedTokens)
        (.human (String.ofList (List.replicate 60 'a')) :: twoGreetings) := by
  refine (token_compression_progress_iff estimatedTokens sevenTokens rfl _ (by decide)).mpr
    ⟨_, _, _, partition_isSplit _ sevenTokens _ (by decide), Or.inr (Or.inr ?_)⟩
  decide +kernel

/-- **A marker can cost more than what it replaces.** Eight tokens become seventeen. -/
theorem greetings_grow :
    WindowedContextEngine.init { maxTokens := some 7 } = .ok sevenTokens ∧
    ((ContextEngine.windowed sevenTokens).compress (countMessageTokens estimatedTokens)
        twoGreetings).map (Message.countedText estimatedTokens) =
      ["[context truncated: 1 messages omitted]", "ok"] ∧
    7 < countTokens (countMessageTokens estimatedTokens) twoGreetings ∧
    ¬ ((ContextEngine.windowed sevenTokens).compress (countMessageTokens estimatedTokens)
        twoGreetings = twoGreetings ∨
      countTokens (countMessageTokens estimatedTokens)
          ((ContextEngine.windowed sevenTokens).compress (countMessageTokens estimatedTokens)
            twoGreetings) <
        countTokens (countMessageTokens estimatedTokens) twoGreetings) := by
  have hbefore : countTokens (countMessageTokens estimatedTokens) twoGreetings = 8 := by
    decide +kernel
  have hafter : countTokens (countMessageTokens estimatedTokens)
      ((ContextEngine.windowed sevenTokens).compress (countMessageTokens estimatedTokens)
        twoGreetings) = 17 := by
    decide +kernel
  refine ⟨sevenTokens.init_args, by decide +kernel, by omega, ?_⟩
  rintro (hsame | hless)
  · rw [hsame] at hafter
    omega
  · omega

end AgentRoom
